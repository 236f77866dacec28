import Mathlib.Logic.Equiv.Defs
import TypeSchema.Proofs.Graph.Closed
import TypeSchema.Proofs.Schema.Parallel

/-!
# Renamed graphs

A graph is renamed by one bijection for each kind of id.  The entries of the result may stand in any
order, and there may be others under ids that are not mentioned.

What is made of a graph depends on the ids only through look-ups and, for symbols, through
comparisons.  `Graph.Renamed` says no more than that: ids that correspond lead to data in which
everything but the ids is equal and the ids correspond again.
-/

namespace TypeSchema

/-! ## Renaming -/

structure Renaming where
  types : TypeId ≃ TypeId
  symbols : SymbolId ≃ SymbolId
  declarations : DeclarationId ≃ DeclarationId

namespace Renaming

variable (ρ : Renaming)

def member : Member → Member
  | .property symbol => .property (ρ.symbols symbol)
  | .method symbol => .method (ρ.symbols symbol)
  | .indexSignature parameters value =>
    .indexSignature (parameters.map ρ.types) (ρ.types value)

def declaration (d : Declaration) : Declaration :=
  { d with
    symbol := d.symbol.map ρ.symbols
    members := d.members.map ρ.member
    children := d.children.map ρ.declarations
    typeReference := d.typeReference.map ρ.symbols }

def symbol (symbol : Symbol) : Symbol :=
  { symbol with
    aliasTarget := symbol.aliasTarget.map ρ.symbols
    declarations := symbol.declarations.map ρ.declarations
    type := symbol.type.map ρ.types }

def objectType (type : ObjectType) : ObjectType :=
  { type with
    properties := type.properties.map ρ.symbols
    baseTypes := type.baseTypes.map ρ.types
    typeArguments := type.typeArguments.map ρ.types
    numberIndex := type.numberIndex.map ρ.types
    stringIndex := type.stringIndex.map ρ.types }

def kind : TypeKind → TypeKind
  | .union members => .union (members.map ρ.types)
  | .intersection members => .intersection (members.map ρ.types)
  | .tuple elements => .tuple (elements.map ρ.types)
  | .object type => .object (ρ.objectType type)
  | kind => kind

def typeNode (node : TypeNode) : TypeNode :=
  ⟨node.name, node.symbol.map ρ.symbols, ρ.kind node.kind⟩

def sourceModule (m : SourceModule) : SourceModule :=
  { m with statements := m.statements.map ρ.declarations }

end Renaming

/-- The renamed entries in any order, with others under keys that no mentioned one is renamed to. -/
def Entries.RenamesTo {κ α : Type} (key : κ → κ) (value : α → α) (mentioned : List κ)
    (entries renamed : Entries κ α) : Prop :=
  ∃ added : Entries κ α, renamed.Perm (entries.map (Prod.map key value) ++ added) ∧
    ∀ k ∈ mentioned, key k ∉ added.keys

/-- The other graph is the first one renamed, reordered and extended. -/
structure Graph.RenamesTo (ρ : Renaming) (g g' : Graph) : Prop where
  modules : g'.modules = g.modules.map ρ.sourceModule
  declarations : g.declarations.entries.RenamesTo ρ.declarations ρ.declaration
    g.mentionedDeclarations g'.declarations.entries
  symbols : g.symbols.entries.RenamesTo ρ.symbols ρ.symbol g.mentionedSymbols g'.symbols.entries
  types : g.types.entries.RenamesTo ρ.types ρ.typeNode g.mentionedTypes g'.types.entries
  diagnostics : g'.diagnostics = g.diagnostics
  strictNullChecks : g'.strictNullChecks = g.strictNullChecks

/-! ## Corresponding data -/

/-- Which ids of two graphs correspond. -/
structure Pairing where
  types : TypeId → TypeId → Prop
  symbols : SymbolId → SymbolId → Prop
  declarations : DeclarationId → DeclarationId → Prop
  symbols_iff {id other id' other' : SymbolId} (h : symbols id id') (hother : symbols other other') :
    other = id ↔ other' = id'

section

variable (r : Pairing)

inductive Member.Renamed : Member → Member → Prop where
  | property {symbol symbol' : SymbolId} (h : r.symbols symbol symbol') :
    Renamed (.property symbol) (.property symbol')
  | method {symbol symbol' : SymbolId} (h : r.symbols symbol symbol') :
    Renamed (.method symbol) (.method symbol')
  | indexSignature {parameters parameters' : List TypeId} {value value' : TypeId}
    (hparameters : List.Forall₂ r.types parameters parameters') (h : r.types value value') :
    Renamed (.indexSignature parameters value) (.indexSignature parameters' value')

structure Declaration.Renamed (d d' : Declaration) : Prop where
  kind : d.kind = d'.kind
  symbol : Option.Rel r.symbols d.symbol d'.symbol
  isAbstract : d.isAbstract = d'.isAbstract
  members : List.Forall₂ (Member.Renamed r) d.members d'.members
  children : List.Forall₂ r.declarations d.children d'.children
  enumMembers : d.enumMembers = d'.enumMembers
  initializer : d.initializer = d'.initializer
  typeReference : Option.Rel r.symbols d.typeReference d'.typeReference

structure Symbol.Renamed (s s' : Symbol) : Prop where
  name : s.name = s'.name
  qualifiedName : s.qualifiedName = s'.qualifiedName
  isOptional : s.isOptional = s'.isOptional
  isMethod : s.isMethod = s'.isMethod
  isTypeLiteral : s.isTypeLiteral = s'.isTypeLiteral
  aliasTarget : Option.Rel r.symbols s.aliasTarget s'.aliasTarget
  declarations : List.Forall₂ r.declarations s.declarations s'.declarations
  type : Option.Rel r.types s.type s'.type
  documentation : s.documentation = s'.documentation
  tags : s.tags = s'.tags

structure ObjectType.Renamed (type type' : ObjectType) : Prop where
  anonymous : type.anonymous = type'.anonymous
  properties : List.Forall₂ r.symbols type.properties type'.properties
  baseTypes : List.Forall₂ r.types type.baseTypes type'.baseTypes
  typeArguments : List.Forall₂ r.types type.typeArguments type'.typeArguments
  numberIndex : Option.Rel r.types type.numberIndex type'.numberIndex
  stringIndex : Option.Rel r.types type.stringIndex type'.stringIndex

/-- A kind of type in which no ids occur. -/
def TypeKind.IsPlain : TypeKind → Prop
  | .union _ | .intersection _ | .tuple _ | .object _ => False
  | _ => True

inductive TypeKind.Renamed : TypeKind → TypeKind → Prop where
  | union {members members' : List TypeId} (h : List.Forall₂ r.types members members') :
    Renamed (.union members) (.union members')
  | intersection {members members' : List TypeId} (h : List.Forall₂ r.types members members') :
    Renamed (.intersection members) (.intersection members')
  | tuple {elements elements' : List TypeId} (h : List.Forall₂ r.types elements elements') :
    Renamed (.tuple elements) (.tuple elements')
  | object {type type' : ObjectType} (h : type.Renamed r type') :
    Renamed (.object type) (.object type')
  | plain {kind : TypeKind} (h : kind.IsPlain) : Renamed kind kind

structure TypeNode.Renamed (node node' : TypeNode) : Prop where
  name : node.name = node'.name
  symbol : Option.Rel r.symbols node.symbol node'.symbol
  kind : node.kind.Renamed r node'.kind

structure SourceModule.Renamed (m m' : SourceModule) : Prop where
  isDefaultLib : m.isDefaultLib = m'.isDefaultLib
  statements : List.Forall₂ r.declarations m.statements m'.statements

structure Graph.Renamed (g g' : Graph) : Prop where
  modules : List.Forall₂ (SourceModule.Renamed r) g.modules g'.modules
  declarations {id id' : DeclarationId} (h : r.declarations id id') :
    Option.Rel (Declaration.Renamed r) (g.declarations.find? id) (g'.declarations.find? id')
  symbols {id id' : SymbolId} (h : r.symbols id id') :
    Option.Rel (Symbol.Renamed r) (g.symbols.find? id) (g'.symbols.find? id')
  types {id id' : TypeId} (h : r.types id id') :
    Option.Rel (TypeNode.Renamed r) (g.types.find? id) (g'.types.find? id')
  diagnostics : g.diagnostics = g'.diagnostics
  strictNullChecks : g.strictNullChecks = g'.strictNullChecks

end

/-! ## Renamed data corresponds -/

theorem forall₂_map {α β : Type} {R : α → β → Prop} {f : α → β} {elements : List α}
    (h : ∀ a ∈ elements, R a (f a)) : List.Forall₂ R elements (elements.map f) :=
  List.forall₂_map_right_iff.2 (List.forall₂_same.2 h)

theorem rel_map {α β : Type} {R : α → β → Prop} {f : α → β} {value : Option α}
    (h : ∀ a ∈ value, R a (f a)) : Option.Rel R value (value.map f) := by
  cases value with
  | none => exact .none
  | some a => exact .some (h a rfl)

/-- What is mentioned is found under its new name, renamed itself, or else is nowhere. -/
theorem Dict.find?_of_renamesTo {κ α : Type} [DecidableEq κ] {key : κ ≃ κ} {value : α → α}
    {mentioned : List κ} {d d' : Dict κ α}
    (h : d.entries.RenamesTo key value mentioned d'.entries) {k : κ} (hk : k ∈ mentioned) :
    d'.find? (key k) = (d.find? k).map value := by
  obtain ⟨added, hperm, hadded⟩ := h
  cases hfind : d.find? k with
  | some a =>
      refine Dict.mem_entries_iff.1 (hperm.mem_iff.2 (List.mem_append_left _ ?_))
      exact List.mem_map.2 ⟨(k, a), Dict.mem_entries_iff.2 hfind, rfl⟩
  | none =>
      refine Option.eq_none_iff_forall_ne_some.2 fun a' hfind' => ?_
      rcases List.mem_append.1 (hperm.mem_iff.1 (Dict.mem_entries_iff.2 hfind')) with hmem | hmem
      · obtain ⟨⟨other, a⟩, hentry, heq⟩ := List.mem_map.1 hmem
        obtain rfl : other = k := key.injective (congrArg Prod.fst heq)
        rw [Dict.mem_entries_iff.1 hentry] at hfind
        cases hfind
      · exact hadded k hk (List.mem_map_of_mem hmem)

namespace Renaming

variable (ρ : Renaming) {g g' : Graph}

/-- An id that the graph mentions corresponds to what it is renamed to. -/
def pairing (g : Graph) : Pairing where
  types id id' := id ∈ g.mentionedTypes ∧ ρ.types id = id'
  symbols id id' := id ∈ g.mentionedSymbols ∧ ρ.symbols id = id'
  declarations id id' := id ∈ g.mentionedDeclarations ∧ ρ.declarations id = id'
  symbols_iff := by
    rintro id other _ _ ⟨-, rfl⟩ ⟨-, rfl⟩
    exact ρ.symbols.apply_eq_iff_eq.symm

theorem member_renamed {m : Member} (htypes : m.types ⊆ g.mentionedTypes)
    (hsymbols : m.symbols ⊆ g.mentionedSymbols) : m.Renamed (ρ.pairing g) (ρ.member m) := by
  cases m with
  | property symbol => exact .property ⟨hsymbols List.mem_cons_self, rfl⟩
  | method symbol => exact .method ⟨hsymbols List.mem_cons_self, rfl⟩
  | indexSignature parameters value =>
      obtain ⟨hvalue, hparameters⟩ := List.cons_subset.1 htypes
      exact .indexSignature (forall₂_map fun id hid => ⟨hparameters hid, rfl⟩) ⟨hvalue, rfl⟩

theorem declaration_renamed {d : Declaration} (hd : d ∈ g.declarations.values) :
    d.Renamed (ρ.pairing g) (ρ.declaration d) where
  kind := rfl
  symbol := rel_map fun id hid => ⟨Graph.mem_mentionedSymbols_of_declaration hd
    (by simp [Declaration.symbols, Option.mem_def.1 hid]), rfl⟩
  isAbstract := rfl
  members := forall₂_map fun m hm => ρ.member_renamed
    (fun id hid => Graph.mem_mentionedTypes_of_declaration hd (List.mem_flatMap.2 ⟨m, hm, hid⟩))
    fun id hid => Graph.mem_mentionedSymbols_of_declaration hd
      (List.mem_append_right _ (List.mem_flatMap.2 ⟨m, hm, hid⟩))
  children := forall₂_map fun id hid => ⟨Graph.mem_mentionedDeclarations_of_parent hd hid, rfl⟩
  enumMembers := rfl
  initializer := rfl
  typeReference := rel_map fun id hid => ⟨Graph.mem_mentionedSymbols_of_declaration hd
    (by simp [Declaration.symbols, Option.mem_def.1 hid]), rfl⟩

theorem symbol_renamed {s : Symbol} (hs : s ∈ g.symbols.values) :
    s.Renamed (ρ.pairing g) (ρ.symbol s) where
  name := rfl
  qualifiedName := rfl
  isOptional := rfl
  isMethod := rfl
  isTypeLiteral := rfl
  aliasTarget := rel_map fun _ hid => ⟨Graph.mem_mentionedSymbols_of_alias hs hid, rfl⟩
  declarations := forall₂_map fun _ hid => ⟨Graph.mem_mentionedDeclarations_of_symbol hs hid, rfl⟩
  type := rel_map fun _ hid => ⟨Graph.mem_mentionedTypes_of_symbol hs hid, rfl⟩
  documentation := rfl
  tags := rfl

theorem objectType_renamed {type : ObjectType} (htypes : type.types ⊆ g.mentionedTypes)
    (hproperties : type.properties ⊆ g.mentionedSymbols) :
    type.Renamed (ρ.pairing g) (ρ.objectType type) where
  anonymous := rfl
  properties := forall₂_map fun id hid => ⟨hproperties hid, rfl⟩
  baseTypes := forall₂_map fun id hid => ⟨htypes (by simp [ObjectType.types, hid]), rfl⟩
  typeArguments := forall₂_map fun id hid => ⟨htypes (by simp [ObjectType.types, hid]), rfl⟩
  numberIndex := rel_map fun id hid =>
    ⟨htypes (by simp [ObjectType.types, Option.mem_def.1 hid]), rfl⟩
  stringIndex := rel_map fun id hid =>
    ⟨htypes (by simp [ObjectType.types, Option.mem_def.1 hid]), rfl⟩

theorem kind_renamed {kind : TypeKind} (htypes : kind.types ⊆ g.mentionedTypes)
    (hproperties : kind.properties ⊆ g.mentionedSymbols) :
    kind.Renamed (ρ.pairing g) (ρ.kind kind) := by
  cases kind with
  | union members => exact .union (forall₂_map fun _ hid => ⟨htypes hid, rfl⟩)
  | intersection members => exact .intersection (forall₂_map fun _ hid => ⟨htypes hid, rfl⟩)
  | tuple elements => exact .tuple (forall₂_map fun _ hid => ⟨htypes hid, rfl⟩)
  | object type => exact .object (ρ.objectType_renamed htypes hproperties)
  | _ => exact .plain trivial

theorem typeNode_renamed {node : TypeNode} (hnode : node ∈ g.types.values) :
    node.Renamed (ρ.pairing g) (ρ.typeNode node) where
  name := rfl
  symbol := rel_map fun _ hid => ⟨Graph.mem_mentionedSymbols_of_type hnode
    (List.mem_append_left _ (Option.mem_toList.2 hid)), rfl⟩
  kind := ρ.kind_renamed (fun _ hid => Graph.mem_mentionedTypes_of_type hnode hid)
    fun _ hid => Graph.mem_mentionedSymbols_of_type hnode (List.mem_append_right _ hid)

theorem sourceModule_renamed {m : SourceModule} (hm : m ∈ g.modules) :
    m.Renamed (ρ.pairing g) (ρ.sourceModule m) where
  isDefaultLib := rfl
  statements := forall₂_map fun _ hid => ⟨Graph.mem_mentionedDeclarations_of_module hm hid, rfl⟩

end Renaming

theorem Graph.RenamesTo.renamed {ρ : Renaming} {g g' : Graph} (h : g.RenamesTo ρ g') :
    g.Renamed (ρ.pairing g) g' where
  modules := h.modules ▸ forall₂_map fun _ hm => ρ.sourceModule_renamed hm
  declarations := by
    rintro id _ ⟨hid, rfl⟩
    rw [Dict.find?_of_renamesTo h.declarations hid]
    exact rel_map fun d hd => ρ.declaration_renamed (List.mem_map_of_mem (Dict.mem_entries_iff.2 hd))
  symbols := by
    rintro id _ ⟨hid, rfl⟩
    rw [Dict.find?_of_renamesTo h.symbols hid]
    exact rel_map fun s hs => ρ.symbol_renamed (List.mem_map_of_mem (Dict.mem_entries_iff.2 hs))
  types := by
    rintro id _ ⟨hid, rfl⟩
    rw [Dict.find?_of_renamesTo h.types hid]
    exact rel_map fun n hn => ρ.typeNode_renamed (List.mem_map_of_mem (Dict.mem_entries_iff.2 hn))
  diagnostics := h.diagnostics.symm
  strictNullChecks := h.strictNullChecks.symm

/-! ## Look-ups -/

namespace Graph.Renamed

variable {r : Pairing} {g g' : Graph} (h : g.Renamed r g')

include h

theorem typeNode {id id' : TypeId} (hid : r.types id id') :
    Parallel (TypeNode.Renamed r) (g.typeNode id) (g'.typeNode id') := by
  unfold Graph.typeNode
  have hfound := h.types hid
  generalize g.types.find? id = found at hfound
  generalize g'.types.find? id' = found' at hfound
  cases hfound with
  | none => exact .error rfl
  | some hvalue => exact .ok hvalue

theorem symbol {id id' : SymbolId} (hid : r.symbols id id') :
    Parallel (Symbol.Renamed r) (g.symbol id) (g'.symbol id') := by
  unfold Graph.symbol
  have hfound := h.symbols hid
  generalize g.symbols.find? id = found at hfound
  generalize g'.symbols.find? id' = found' at hfound
  cases hfound with
  | none => exact .error rfl
  | some hvalue => exact .ok hvalue

theorem declaration {id id' : DeclarationId} (hid : r.declarations id id') :
    Parallel (Declaration.Renamed r) (g.declaration id) (g'.declaration id') := by
  unfold Graph.declaration
  have hfound := h.declarations hid
  generalize g.declarations.find? id = found at hfound
  generalize g'.declarations.find? id' = found' at hfound
  cases hfound with
  | none => exact .error rfl
  | some hvalue => exact .ok hvalue

theorem firstDeclaration {id id' : SymbolId} (hid : r.symbols id id') :
    Parallel (Option.Rel (Declaration.Renamed r)) (g.firstDeclaration id)
      (g'.firstDeclaration id') := by
  refine (h.symbol hid).bind fun s s' hs => ?_
  have hlist := hs.declarations
  generalize s.declarations = ids at hlist
  generalize s'.declarations = ids' at hlist
  cases hlist with
  | nil => exact .ok .none
  | cons hfirst _ => exact (h.declaration hfirst).bind fun d d' hd => .ok (.some hd)

theorem resolveAlias {id id' : SymbolId} (hid : r.symbols id id') :
    Parallel r.symbols (g.resolveAlias id) (g'.resolveAlias id') := by
  unfold Graph.resolveAlias
  generalize maxAliasHops = hops
  induction hops generalizing id id' with
  | zero => exact .ok hid
  | succ hops ih =>
      refine (h.symbol hid).bind fun s s' hs => ?_
      have halias := hs.aliasTarget
      generalize s.aliasTarget = target at halias
      generalize s'.aliasTarget = target' at halias
      cases halias with
      | none => exact .ok hid
      | some htarget => exact ih htarget

end Graph.Renamed

end TypeSchema
