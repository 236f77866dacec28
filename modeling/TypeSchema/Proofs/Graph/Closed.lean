import Mathlib.Logic.Relation
import TypeSchema.Proofs.Schema.Shapes

/-!
# Closed graphs

A graph is closed if whatever its declarations, symbols and types mention is part of it, so that
every look-up that begins there finds something.
-/

namespace TypeSchema

open Relation (TransGen)

/-! ## What is mentioned -/

namespace Member

def types : Member → List TypeId
  | .indexSignature parameters value => value :: parameters
  | _ => []

def symbols : Member → List SymbolId
  | .property symbol => [symbol]
  | .method symbol => [symbol]
  | _ => []

end Member

namespace Declaration

def types (d : Declaration) : List TypeId := d.members.flatMap Member.types

def symbols (d : Declaration) : List SymbolId :=
  d.symbol.toList ++ d.typeReference.toList ++ d.members.flatMap Member.symbols

end Declaration

def ObjectType.types (type : ObjectType) : List TypeId :=
  type.baseTypes ++ type.typeArguments ++ type.numberIndex.toList ++ type.stringIndex.toList

namespace TypeKind

def types : TypeKind → List TypeId
  | .union members => members
  | .intersection members => members
  | .tuple elements => elements
  | .object type => type.types
  | _ => []

def properties : TypeKind → List SymbolId
  | .object type => type.properties
  | _ => []

end TypeKind

def TypeNode.symbols (node : TypeNode) : List SymbolId :=
  node.symbol.toList ++ node.kind.properties

namespace Graph

variable {g : Graph}

def mentionedTypes (g : Graph) : List TypeId :=
  g.declarations.values.flatMap (·.types) ++ g.symbols.values.filterMap (·.type) ++
    g.types.values.flatMap (·.kind.types)

def mentionedSymbols (g : Graph) : List SymbolId :=
  g.declarations.values.flatMap (·.symbols) ++ g.symbols.values.filterMap (·.aliasTarget) ++
    g.types.values.flatMap (·.symbols)

def mentionedDeclarations (g : Graph) : List DeclarationId :=
  g.modules.flatMap (·.statements) ++ g.declarations.values.flatMap (·.children) ++
    g.symbols.values.flatMap (·.declarations)

/-- Everything that is mentioned is part of the graph. -/
structure Closed (g : Graph) : Prop where
  types : g.mentionedTypes ⊆ g.types.keys
  symbols : g.mentionedSymbols ⊆ g.symbols.keys
  declarations : g.mentionedDeclarations ⊆ g.declarations.keys

def HasChild (g : Graph) (id child : DeclarationId) : Prop :=
  ∃ d, g.declarations.find? id = some d ∧ child ∈ d.children

/-- No declaration is nested in itself. -/
def Acyclic (g : Graph) : Prop := ∀ id, ¬ TransGen g.HasChild id id

section

variable {rank : DeclarationId → Nat} (hrank : ∀ entry ∈ g.declarations.entries,
  ∀ child ∈ entry.2.children, rank child < rank entry.1)

include hrank

theorem rank_lt_of_hasChild {id child : DeclarationId} (h : g.HasChild id child) :
    rank child < rank id := by
  obtain ⟨d, hfind, hchild⟩ := h
  exact hrank (id, d) (Dict.mem_entries_iff.2 hfind) child hchild

theorem rank_lt_of_nested {id nested : DeclarationId} (h : TransGen g.HasChild id nested) :
    rank nested < rank id := by
  induction h with
  | single h => exact rank_lt_of_hasChild hrank h
  | tail _ h ih => exact Nat.lt_trans (rank_lt_of_hasChild hrank h) ih

/-- Nesting is acyclic if a rank falls along it. -/
theorem acyclic_of_rank : g.Acyclic :=
  fun _ hcycle => Nat.lt_irrefl _ (rank_lt_of_nested hrank hcycle)

end

/-! ## Where it is mentioned -/

section

variable {d : Declaration} {symbol : Symbol} {node : TypeNode} {type : TypeId} {id : SymbolId}
  {declaration : DeclarationId}

theorem mem_mentionedTypes_of_declaration (hd : d ∈ g.declarations.values)
    (htype : type ∈ d.types) : type ∈ g.mentionedTypes :=
  List.mem_append_left _ (List.mem_append_left _ (List.mem_flatMap.2 ⟨d, hd, htype⟩))

theorem mem_mentionedTypes_of_symbol (hsymbol : symbol ∈ g.symbols.values)
    (htype : symbol.type = some type) : type ∈ g.mentionedTypes :=
  List.mem_append_left _ (List.mem_append_right _ (List.mem_filterMap.2 ⟨symbol, hsymbol, htype⟩))

theorem mem_mentionedTypes_of_type (hnode : node ∈ g.types.values)
    (htype : type ∈ node.kind.types) : type ∈ g.mentionedTypes :=
  List.mem_append_right _ (List.mem_flatMap.2 ⟨node, hnode, htype⟩)

theorem mem_mentionedSymbols_of_declaration (hd : d ∈ g.declarations.values)
    (hid : id ∈ d.symbols) : id ∈ g.mentionedSymbols :=
  List.mem_append_left _ (List.mem_append_left _ (List.mem_flatMap.2 ⟨d, hd, hid⟩))

theorem mem_mentionedSymbols_of_alias (hsymbol : symbol ∈ g.symbols.values)
    (hid : symbol.aliasTarget = some id) : id ∈ g.mentionedSymbols :=
  List.mem_append_left _ (List.mem_append_right _ (List.mem_filterMap.2 ⟨symbol, hsymbol, hid⟩))

theorem mem_mentionedSymbols_of_type (hnode : node ∈ g.types.values) (hid : id ∈ node.symbols) :
    id ∈ g.mentionedSymbols :=
  List.mem_append_right _ (List.mem_flatMap.2 ⟨node, hnode, hid⟩)

theorem mem_mentionedDeclarations_of_module {m : SourceModule} (hm : m ∈ g.modules)
    (hid : declaration ∈ m.statements) : declaration ∈ g.mentionedDeclarations :=
  List.mem_append_left _ (List.mem_append_left _ (List.mem_flatMap.2 ⟨m, hm, hid⟩))

theorem mem_mentionedDeclarations_of_parent (hd : d ∈ g.declarations.values)
    (hid : declaration ∈ d.children) : declaration ∈ g.mentionedDeclarations :=
  List.mem_append_left _ (List.mem_append_right _ (List.mem_flatMap.2 ⟨d, hd, hid⟩))

theorem mem_mentionedDeclarations_of_symbol (hsymbol : symbol ∈ g.symbols.values)
    (hid : declaration ∈ symbol.declarations) : declaration ∈ g.mentionedDeclarations :=
  List.mem_append_right _ (List.mem_flatMap.2 ⟨symbol, hsymbol, hid⟩)

end

end Graph

end TypeSchema
