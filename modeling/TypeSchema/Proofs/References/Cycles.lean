import Mathlib.Logic.Relation
import Mathlib.Order.WellFoundedSet
import TypeSchema.Proofs.Document.Assembled
import TypeSchema.Proofs.References.Origin
import TypeSchema.Proofs.References.Pointed

/-!
# Cycles of references

An entry of `definitions` may be nothing but a reference to another entry: the entry of a union of
which only that reference is left.  Following such references comes to an end unless the names of
these unions lead around in a circle already, which takes an alias with the name of one of its
members.
-/

namespace TypeSchema

open Relation (TransGen ReflTransGen)
open Schema

/-! ## Following references -/

/-- The entry under the first name is a reference to the second. -/
def RefersTo (entries : Entries String Json) (name name' : String) : Prop :=
  ∃ value, Entries.find? name entries = some value ∧
    value.reference? = some (Definition.definitionsPointer ++ name')

def HasContent (entries : Entries String Json) (name : String) : Prop :=
  ∃ value, Entries.find? name entries = some value ∧ value.reference? = none

/-- Entries that are references refer to entries under some of the names, and those under these
names refer as given. -/
def Chained (entries : Entries String Json) (names : List String) (leads : String → String → Prop) :
    Prop :=
  ∀ name value ref, Entries.find? name entries = some value → value.reference? = some ref →
    ∃ name' ∈ names, name' ∈ entries.keys ∧ ref = Definition.definitionsPointer ++ name' ∧
      (name ∈ names → leads name name')

variable {entries : Entries String Json} {names : List String} {leads : String → String → Prop}
  {name name' : String}

theorem Chained.step (h : Chained entries names leads) (hstep : RefersTo entries name name') :
    name' ∈ names ∧ name' ∈ entries.keys ∧ (name ∈ names → leads name name') := by
  obtain ⟨value, hvalue, href⟩ := hstep
  obtain ⟨other, hmem, hkeys, heq, hleads⟩ := h name value _ hvalue href
  rw [(String.append_right_inj _).1 heq]
  exact ⟨hmem, hkeys, hleads⟩

theorem Chained.steps (h : Chained entries names leads)
    (hsteps : TransGen (RefersTo entries) name name') (hname : name ∈ names) :
    TransGen leads name name' ∧ name' ∈ names := by
  induction hsteps with
  | single hstep =>
      obtain ⟨hmem, -, hleads⟩ := h.step hstep
      exact ⟨.single (hleads hname), hmem⟩
  | tail _ hstep ih =>
      obtain ⟨hmem, -, hleads⟩ := h.step hstep
      exact ⟨ih.1.tail (hleads ih.2), hmem⟩

theorem Chained.acyclic (h : Chained entries names leads)
    (hacyclic : ∀ name, ¬ TransGen leads name name) (name : String) :
    ¬ TransGen (RefersTo entries) name name := by
  intro hcycle
  -- A reference leads back to the name, so it is one of those that steps tell something about.
  obtain ⟨last, -, hlast⟩ := TransGen.tail'_iff.1 hcycle
  exact hacyclic name (h.steps hcycle (h.step hlast).1).1

theorem Chained.reaches (h : Chained entries names leads)
    (hacyclic : ∀ name, ¬ TransGen (RefersTo entries) name name) (hname : name ∈ entries.keys) :
    ∃ name', ReflTransGen (RefersTo entries) name name' ∧ HasContent entries name' := by
  have horder : IsStrictOrder String fun a b => TransGen (RefersTo entries) b a :=
    { irrefl := hacyclic, trans := fun _ _ _ hab hbc => hbc.trans hab }
  have hwf : Set.WellFoundedOn { key | key ∈ entries.keys }
      fun a b => TransGen (RefersTo entries) b a := entries.keys.finite_toSet.wellFoundedOn
  refine hwf.induction (P := fun name => ∃ name', ReflTransGen (RefersTo entries) name name' ∧
    HasContent entries name') hname fun name hname ih => ?_
  obtain ⟨value, hvalue⟩ := Entries.mem_keys_iff.1 hname
  cases href : value.reference? with
  | none => exact ⟨name, .refl, value, hvalue, href⟩
  | some ref =>
      obtain ⟨name', -, hkeys, rfl, -⟩ := h name value ref hvalue href
      have hstep : RefersTo entries name name' := ⟨value, hvalue, href⟩
      obtain ⟨last, hlast, hcontent⟩ := ih name' hkeys (.single hstep)
      exact ⟨last, .head hstep hlast, hcontent⟩

/-! ## Entries of documents -/

namespace Document

def Root (env : Environment) (target : String) (type : TypeId) (ctx : Context) : Prop :=
  if target = allTypes then
    (∃ name, (name, type) ∈ env.table.user.entries) ∧ ctx = Context.standing false
  else env.table.all.find? target = some type ∧ ctx = Context.standing env.settings.useRootRef

/-- The first name is that of a type of which only a reference to the second is left. -/
def LeadsTo (env : Environment) (target name name' : String) : Prop :=
  ∃ type ctx, Placed env (Root env target) type ctx ∧
    referenceOf env type ctx = .ok (some name) ∧ Collapses env type name'

variable {env : Environment} {target : String} {p : Progress} {d : Definition}

theorem registry_leads
    (hp : Kept env (Root env target) (fun names type _ d => CollapsesWithin env names type d) p)
    {value : Json} {ref : String}
    (hvalue : Entries.find? name (registryJson p.registry).entries = some value)
    (href : value.reference? = some ref) :
    ∃ name' ∈ p.registry.keys, ref = Definition.definitionsPointer ++ name' ∧
      LeadsTo env target name name' := by
  obtain ⟨d, hd, rfl⟩ : ∃ d, p.registry.find? name = some d ∧ d.toJson = value := by
    change (registryJson p.registry).find? name = some value at hvalue
    rwa [registryJson, Dict.find?_mapValues, Option.map_eq_some_iff] at hvalue
  obtain ⟨type, ctx, hplace, hname, hcollapses⟩ := hp name d hd
  obtain ⟨name', hmem, heq, hcollapse⟩ := hcollapses ref href
  exact ⟨name', hmem, heq, type, ctx, hplace, hname, hcollapse⟩

theorem forType_chained (henv : AnnotatesNoLink env.graph env.settings)
    (htarget : target ≠ allTypes) (h : (forType env target).on .initial = (.ok d, p)) :
    Chained d.definitions p.registry.keys (LeadsTo env target) := by
  obtain ⟨type, root, htype, hroot, rfl⟩ := forType_ok h
  have guarantee : Guarantee env (Root env target) _ _ := pointed_guarantee henv
  have hsecures := guarantee.typeDefinition maxDepth hroot
    (.root (by rw [Root, if_neg htarget]; exact ⟨htype, rfl⟩)) kept_initial
  rw [((Definition.SameLinks.refl _).insert rfl _).definitions_eq]
  unfold attached Definition.insertIf
  split <;> intro name value ref hvalue href
  · rw [Definition.definitions_insert_self] at hvalue ⊢
    obtain ⟨name', hmem, heq, hleads⟩ := registry_leads hsecures.kept hvalue href
    refine ⟨name', hmem, ?_, heq, fun _ => hleads⟩
    rw [← keys_registryJson] at hmem
    exact hmem
  · have hnone := (hsecures.given _ List.mem_cons_self).definitions _
      (Entries.mem_of_find?_eq_some hvalue)
    rw [href] at hnone
    cases hnone

theorem forAllTypes_chained (henv : AnnotatesNoLink env.graph env.settings)
    (h : (forAllTypes env).on .initial = (.ok d, p)) :
    Chained d.definitions p.registry.keys (LeadsTo env allTypes) := by
  obtain ⟨made, entries, hmade, hinlines, rfl⟩ := forAllTypes_ok h
  have guarantee : Guarantee env (Root env allTypes) _ _ := pointed_guarantee henv
  have hsecures := hmade.secures guarantee (guarantee.typeDefinition maxDepth)
    (fun m hm => .root (hinlines.places m hm)) kept_initial
  rw [Definition.definitions_insert_self]
  intro name value ref hvalue href
  change Dict.find? _ name = some value at hvalue
  rcases hinlines.find? hvalue with ⟨entry, hentry, rfl⟩ | ⟨hfree, m, hm, -, -, rfl⟩
  · have hregistered : (registryJson p.registry).find? name = some entry.toJson := by
      rw [registryJson, Dict.find?_mapValues, hentry]
      rfl
    obtain ⟨name', hmem, heq, hleads⟩ := registry_leads hsecures.kept hregistered href
    exact ⟨name', hmem, mem_keys_merge_registry hmem, heq, fun _ => hleads⟩
  · -- An entry that gave way to no registered one has a name that nothing refers to.
    obtain ⟨name', hname', heq, -⟩ := (hsecures.given m hm).reference ref href
    exact ⟨name', hname', mem_keys_merge_registry hname', heq, fun hname => absurd hname hfree⟩

theorem forTarget_chained (henv : AnnotatesNoLink env.graph env.settings)
    (h : (forTarget env target).on .initial = (.ok d, p)) :
    Chained d.definitions p.registry.keys (LeadsTo env target) := by
  unfold forTarget at h
  split at h
  · rename_i htarget
    rw [htarget]
    exact forAllTypes_chained henv h
  · rename_i htarget
    exact forType_chained henv htarget h

theorem LeadsTo.own_name (h : LeadsTo env target name name') :
    ∃ node ∈ env.graph.types.values, node.symbol ≠ none ∧
      name' = QualifiedName.stripModulePath node.name := by
  obtain ⟨type, ctx, -, -, hcollapses⟩ := h
  induction hcollapses with
  | @referred _ member _ _ hname =>
      rcases namedByAlias_or_own hname with ⟨_, _, _, -, -, hreffed, -⟩ | ⟨node, hnode, hown⟩
      · cases hreffed
      · exact ⟨node, List.mem_map_of_mem (Graph.mem_types hnode), hown⟩
  | inlined _ _ _ ih => exact ih

/-- Names of unions that collapse lead in no circle if types have other names of their own. -/
theorem leadsTo_acyclic (h : ∀ name name', LeadsTo env target name name' →
    ∀ node ∈ env.graph.types.values, node.symbol ≠ none →
      QualifiedName.stripModulePath node.name ≠ name) (name : String) :
    ¬ TransGen (LeadsTo env target) name name := by
  intro hcycle
  obtain ⟨next, hfirst, -⟩ := TransGen.head'_iff.1 hcycle
  obtain ⟨last, -, hlast⟩ := TransGen.tail'_iff.1 hcycle
  obtain ⟨node, hnode, hsymbol, hown⟩ := hlast.own_name
  exact h name next hfirst node hnode hsymbol hown.symm

/-! ## An alias of a union -/

/-- An alias with the given name, which stands for `Foo` or undefined. -/
def aliasGraph (name : String) : Graph where
  modules := [⟨"a.ts", false, [⟨"Foo"⟩, ⟨"Holder"⟩]⟩]
  declarations := .ofEntries [
    (⟨"Foo"⟩, { Declaration.blank with kind := .interface, symbol := some ⟨"Foo"⟩ }),
    (⟨"Holder"⟩, { Declaration.blank with kind := .interface, symbol := some ⟨"Holder"⟩ }),
    (⟨"foo"⟩, { Declaration.blank with kind := .property, typeReference := some ⟨"alias"⟩ })]
  symbols := .ofEntries [
    (⟨"Foo"⟩, { Symbol.blank with
      name := "Foo", qualifiedName := "\"a\".Foo", type := some ⟨"Foo"⟩,
      declarations := [⟨"Foo"⟩] }),
    (⟨"Holder"⟩, { Symbol.blank with
      name := "Holder", qualifiedName := "Holder", type := some ⟨"Holder"⟩,
      declarations := [⟨"Holder"⟩] }),
    (⟨"foo"⟩, { Symbol.blank with
      name := "foo", type := some ⟨"Foo | undefined"⟩, declarations := [⟨"foo"⟩] }),
    (⟨"alias"⟩, { Symbol.blank with name := name, qualifiedName := name })]
  types := .ofEntries [
    (⟨"undefined"⟩, ⟨"undefined", none, .undefined⟩),
    (⟨"Foo"⟩, ⟨"\"a\".Foo", some ⟨"Foo"⟩, .object ObjectType.blank⟩),
    (⟨"Foo | undefined"⟩,
      ⟨"\"a\".Foo | undefined", none, .union [⟨"Foo"⟩, ⟨"undefined"⟩]⟩),
    (⟨"Holder"⟩, ⟨"Holder", some ⟨"Holder"⟩,
      .object { ObjectType.blank with properties := [⟨"foo"⟩] }⟩)]
  diagnostics := []
  strictNullChecks := false

def aliasTable : SymbolTable where
  all := .ofEntries [("Foo", ⟨"Foo"⟩), ("Holder", ⟨"Holder"⟩)]
  user := .ofEntries [("Foo", ⟨"Foo"⟩), ("Holder", ⟨"Holder"⟩)]
  inheriting := ∅

def aliasSettings : Settings := { Settings.default with useTypeAliasRef := true }

theorem collapses_alias {env : Environment} {name written : String} {type : TypeId}
    (henv : env.graph = aliasGraph written) (h : Collapses env type name) :
    type = ⟨"Foo | undefined"⟩ := by
  obtain ⟨node, members, hnode, hkind⟩ := h.union
  have hmem := Graph.mem_types hnode
  rw [henv, show (aliasGraph written).types.entries = [_, _, _, _] from rfl] at hmem
  simp only [List.mem_cons, Prod.mk.injEq, List.not_mem_nil, or_false] at hmem
  obtain ⟨-, rfl⟩ | ⟨-, rfl⟩ | ⟨rfl, -⟩ | ⟨-, rfl⟩ := hmem
  · cases hkind
  · cases hkind
  · rfl
  · cases hkind

theorem foo_of_union {written : String} {id : SymbolId} {property : Symbol}
    (h : (aliasGraph written).symbol id = .ok property)
    (htype : property.type = some ⟨"Foo | undefined"⟩) : id = ⟨"foo"⟩ := by
  have hmem := Graph.mem_symbols h
  rw [show (aliasGraph written).symbols.entries = [_, _, _, _] from rfl] at hmem
  simp only [List.mem_cons, Prod.mk.injEq, List.not_mem_nil, or_false] at hmem
  obtain ⟨-, rfl⟩ | ⟨-, rfl⟩ | ⟨rfl, -⟩ | ⟨-, rfl⟩ := hmem
  · simp at htype
  · simp at htype
  · rfl
  · simp [Symbol.blank] at htype

theorem leadsTo_maybe {name name' : String}
    (h : LeadsTo (environment (aliasGraph "Maybe") aliasSettings aliasTable) "Holder" name name') :
    name = "Maybe" := by
  obtain ⟨type, ctx, hplace, hname, hcollapses⟩ := h
  obtain rfl := collapses_alias rfl hcollapses
  rcases namedByAlias_or_own hname with ⟨_, id, symbol, -, -, hreffed, hsymbol, rfl⟩ |
    ⟨node, hnode, hsymbol, -⟩
  · cases hplace with
    | root hroot =>
        rw [Root, if_neg (by decide)] at hroot
        exact absurd hroot.1 (by decide)
    | inside hinside =>
        cases hinside with
        | part => cases hreffed
        | mapValue => cases hreffed
        | property place =>
            obtain ⟨found, hfound, htype⟩ := place.hasType
            obtain ⟨reffed, hwritten, rfl⟩ := place.isWritten
            obtain rfl : reffed = some id := hreffed
            obtain rfl := foo_of_union hfound htype
            cases place.isDeclared
            cases hwritten
            cases hsymbol
            rfl
  · cases hnode
    exact absurd rfl hsymbol

/-! ## All documents -/

/-- If no chain of unions that collapse leads from a name back to it, then no chain of entries that
are references does, and references lead from every entry to one with content. -/
theorem generate_acyclic {g : Graph} {settings : Settings} {table : SymbolTable}
    {notices : List Notice} (hnotes : AnnotatesNoLink g settings)
    (htable : (SymbolTable.collect g).1 = .ok table)
    (hacyclic : ∀ name, ¬ TransGen (LeadsTo (environment g settings table) target) name name)
    (h : generate g target settings = (.ok (some d), notices)) :
    (∀ name, ¬ TransGen (RefersTo d.definitions) name name) ∧
      ∀ name ∈ d.definitions.keys, ∃ name',
        ReflTransGen (RefersTo d.definitions) name name' ∧ HasContent d.definitions name' := by
  obtain ⟨p, hp⟩ := generate_ok htable h
  have hchained := forTarget_chained hnotes hp
  have hentries : ∀ name, ¬ TransGen (RefersTo d.definitions) name name :=
    hchained.acyclic hacyclic
  exact ⟨hentries, fun name hname => hchained.reaches hentries hname⟩

theorem generate_acyclic_maybe :
    ∃ d notices, generate (aliasGraph "Maybe") "Holder" aliasSettings = (.ok (some d), notices) ∧
      (∀ name, ¬ TransGen (RefersTo d.definitions) name name) ∧
      ∀ name ∈ d.definitions.keys, ∃ name',
        ReflTransGen (RefersTo d.definitions) name name' ∧ HasContent d.definitions name' := by
  obtain ⟨d, notices, h, -⟩ : ∃ d notices, generate (aliasGraph "Maybe") "Holder" aliasSettings =
      (.ok (some d), notices) ∧ d.definitions.keys.contains "Maybe" = true :=
    exists_document (by decide +kernel)
  refine ⟨d, notices, h, generate_acyclic ⟨by decide, by decide +kernel⟩ rfl
    (leadsTo_acyclic fun name name' hleads => ?_) h⟩
  rw [leadsTo_maybe hleads]
  decide +kernel

theorem exists_self_reference {g : Graph} {settings : Settings}
    (h : ((generate g target settings).1.toOption.join.any fun d =>
      (Entries.find? name d.definitions).any fun value =>
        value.reference? = some (Definition.definitionsPointer ++ name)) = true) :
    ∃ d notices, generate g target settings = (.ok (some d), notices) ∧
      RefersTo d.definitions name name := by
  obtain ⟨d, notices, hdoc, hentry⟩ := exists_document h
  obtain ⟨value, hvalue, href⟩ := (Option.any_eq_true _ _).1 hentry
  exact ⟨d, notices, hdoc, value, hvalue, of_decide_eq_true href⟩

/-- An alias that has the name of its only member that is left refers to itself. -/
theorem references_may_cycle :
    ¬ ∀ (g : Graph) (target : String) (settings : Settings) (d : Definition)
        (notices : List Notice), "$ref" ∉ settings.validationKeywords →
      generate g target settings = (.ok (some d), notices) →
        ∀ name, ¬ TransGen (RefersTo d.definitions) name name := by
  intro h
  obtain ⟨d, notices, hdoc, hself⟩ : ∃ d notices,
      generate (aliasGraph "Foo") "Holder" aliasSettings = (.ok (some d), notices) ∧
        RefersTo d.definitions "Foo" "Foo" := exists_self_reference (by decide +kernel)
  exact h _ _ _ d notices (by decide) hdoc "Foo" (.single hself)

/-- A type with an annotation that gives the document a definition `type`. -/
def annotatedGraph : Graph where
  modules := [⟨"a.ts", false, [⟨"Foo"⟩]⟩]
  declarations := .ofEntries [
    (⟨"Foo"⟩, { Declaration.blank with kind := .interface, symbol := some ⟨"Foo"⟩ })]
  symbols := .ofEntries [
    (⟨"Foo"⟩, { Symbol.blank with
      name := "Foo", qualifiedName := "Foo", type := some ⟨"Foo"⟩, declarations := [⟨"Foo"⟩]
      documentation := ["@definitions.type \x7b\"$ref\": \"#/definitions/type\"\x7d"] })]
  types := .ofEntries [(⟨"Foo"⟩, ⟨"Foo", some ⟨"Foo"⟩, .object ObjectType.blank⟩)]
  diagnostics := []
  strictNullChecks := false

def annotatedTable : SymbolTable where
  all := .ofEntries [("Foo", ⟨"Foo"⟩)]
  user := .ofEntries [("Foo", ⟨"Foo"⟩)]
  inheriting := ∅

/-- Without any unions, an annotation that gives a definition may give one that refers to itself. -/
theorem annotations_may_cycle :
    ¬ ∀ (g : Graph) (target : String) (settings : Settings) (table : SymbolTable) (d : Definition)
        (notices : List Notice), "$ref" ∉ settings.validationKeywords →
      (SymbolTable.collect g).1 = .ok table →
      (∀ name, ¬ TransGen (LeadsTo (environment g settings table) target) name name) →
      generate g target settings = (.ok (some d), notices) →
        ∀ name, ¬ TransGen (RefersTo d.definitions) name name := by
  intro h
  obtain ⟨d, notices, hdoc, hself⟩ : ∃ d notices,
      generate annotatedGraph "Foo" .default = (.ok (some d), notices) ∧
        RefersTo d.definitions "type" "type" := exists_self_reference (by decide +kernel)
  refine h _ _ _ annotatedTable d notices (by decide) rfl
    (leadsTo_acyclic fun name name' hleads => ?_) hdoc "type" (.single hself)
  obtain ⟨type, -, -, -, hcollapses⟩ := hleads
  obtain ⟨node, members, hnode, hkind⟩ := hcollapses.union
  obtain ⟨rfl, rfl⟩ := Prod.mk.inj (List.mem_singleton.1 (Graph.mem_types hnode))
  cases hkind

end Document

end TypeSchema
