import TypeSchema.Proofs.Validation.Inlining
import TypeSchema.Proofs.Validation.Names

/-!
# Documents with and without references

Whether types are referred to or inlined makes no difference to the values that a document accepts,
unless a name stands for several types, or a union under `oneOf` has members that are bare types
only where they are inlined and that overlap: they make one branch then, but several otherwise.
-/

namespace TypeSchema

namespace Schema

theorem inlinesAbsent_withoutRefs (env : Environment) : InlinesAbsent env.withoutRefs := by
  intro _ id type ctx hplace hleaves
  obtain ⟨-, name, -, -, -, hname, -⟩ := leavesOut_iff.1 hleaves
  cases name with
  | none => exact hname
  | some name =>
      obtain ⟨declaration, place⟩ := exists_place hplace
      cases (Inside.property place).asRef.symm.trans (asRef_of_referenceOf hname)

end Schema

namespace Document

open Schema Validation

variable {dialect : Dialect} {env : Environment} {d d' : Definition} {p p' : Progress}
  {target : String}

/-- The names in a document lead to the types that are referred to by them. -/
theorem leadsToType {root : TypeId} {rootDefinition : Definition} {schema : Json}
    (huse : env.settings.useRef = true) (hinline : InlinesAbsent env)
    (hrefers : RefersAlike env p)
    (h : (define env root (Context.standing false)).on .initial = (.ok rootDefinition, p)) :
    LeadsToType env (Refers p) (Definition.definitions
      ((attached env.settings p.registry rootDefinition).insert "$schema" schema)) := by
  intro name type ctx href
  have htraced : Traced env p := traced_initial.steps (typeDefinition_steps h)
  obtain ⟨type', ctx', hreserved⟩ :=
    (htraced.registered name).1 (htraced.referred name type ctx href).2
  obtain ⟨rfl, halike⟩ := hrefers name type ctx type' ctx' href hreserved
  obtain ⟨entry, hfind, hstored⟩ := define_stored hinline h hreserved
  exact ⟨ctx', entry, find?_definitions_attached huse hfind, hstored, halike⟩

/-- Nothing that is read is attached to the definition of the type. -/
theorem find?_assembled (settings : Settings) (registry : Dict String Definition)
    (root : Definition) (schema : Json) {key : String} (hkey : key ∈ readKeywords) :
    ((attached settings registry root).insert "$schema" schema).find? key = root.find? key := by
  have hne : key ≠ "$schema" ∧ key ≠ "definitions" := by
    constructor <;> rintro rfl <;> revert hkey <;> decide
  rw [Dict.find?_insert_of_ne _ hne.1, attached, Definition.find?_insertIf_of_ne _ _ hne.2]

/-- A document reaches the same verdict on each value, with and without references. -/
theorem forType_verdicts_agree (hplain : IsPlain env.graph) (huse : env.settings.useRef = true)
    (hroot : env.settings.useRootRef = false) (hinline : InlinesAbsent env)
    (habsent : SameAbsent env) (hrefers : RefersAlike env p)
    (hunions : ∀ root, env.table.all.find? target = some root → UnionsTellApart dialect env root)
    (h : (forType env target).on .initial = (.ok d, p))
    (h' : (forType env.withoutRefs target).on .initial = (.ok d', p')) (v : Json) :
    Accepts dialect d v ∧ Accepts dialect d' v ∨ Rejects dialect d v ∧ Rejects dialect d' v := by
  obtain ⟨root, rootDefinition, htable, hdefine, hd⟩ := forType_ok h
  obtain ⟨root', rootDefinition', htable', hdefine', hd'⟩ := forType_ok h'
  cases htable.symm.trans htable'
  have hroot' : env.withoutRefs.settings.useRootRef = false := hroot
  rw [hroot] at hdefine
  rw [hroot'] at hdefine'
  have hleads : LeadsToType env (Refers p) d.definitions := by
    rw [hd]
    exact leadsToType huse hinline hrefers hdefine
  have hmatches : ∃ depth, Matches dialect d.definitions d'.definitions [] depth rootDefinition
      rootDefinition' :=
    given_matches hplain habsent (hunions root htable) hleads
      (define_given (inlinesAbsent_withoutRefs env) hdefine').1 .root (Context.standing false)
      rootDefinition rfl (define_given hinline hdefine).1
  obtain ⟨depth, hmatches⟩ := hmatches
  refine (hmatches.agrees.congr (fun key hkey => ?_) fun key hkey => ?_).documents v
  · rw [hd]
    exact find?_assembled _ _ _ _ hkey
  · rw [hd']
    exact find?_assembled _ _ _ _ hkey

/-! ## Bare types where they are inlined -/

/-- What a member is described as by itself is what it is described as in every union. -/
theorem bareAs_of_define {member : TypeId} {expected : Option String} (hinline : InlinesAbsent env)
    (h : ((define env member (Context.nested env.settings)).on .initial).1.toOption.any
      (·.bareType == expected) = true) {tag : String} (hbare : BareAs env member tag) :
    expected = some tag := by
  obtain ⟨d, p, hd, hcheck⟩ := Run.exists_ok h
  rw [← hbare.eq (define_given hinline hd).1]
  exact (beq_iff_eq.1 hcheck).symm

def membersOf (node : TypeNode) : Option (List TypeId) :=
  match node.kind with
  | .union members => some members
  | _ => none

/-- The members of each union of a program. -/
def unionsOf (g : Graph) : List (List TypeId) := g.types.values.filterMap membersOf

theorem unionsTellApart_of_all {root : TypeId}
    (h : ∀ members ∈ unionsOf env.graph, TellsApart dialect env members) :
    UnionsTellApart dialect env root := by
  intro type ctx node members _ _ hnode hkind
  have hmembers : membersOf node = some members := by rw [membersOf, hkind]
  exact h members (List.mem_filterMap.2
    ⟨node, List.mem_map_of_mem (Graph.mem_types hnode), hmembers⟩)

/-- An interface `Mark` that mentions `Point` twice, once in a union. -/
def markGraph : Graph where
  modules := []
  declarations := .ofEntries []
  symbols := .ofEntries [
    (⟨"Point"⟩, { Symbol.blank with name := "Point", qualifiedName := "Point" }),
    (⟨"Mark"⟩, { Symbol.blank with name := "Mark", qualifiedName := "Mark" }),
    (⟨"x"⟩, { Symbol.blank with name := "x", type := some ⟨"number"⟩ }),
    (⟨"at"⟩, { Symbol.blank with name := "at", type := some ⟨"Point"⟩ }),
    (⟨"label"⟩, { Symbol.blank with name := "label", type := some ⟨"string | Point"⟩ }),
    (⟨"size"⟩, { Symbol.blank with name := "size", type := some ⟨"number | undefined"⟩ })]
  types := .ofEntries [
    (⟨"number"⟩, ⟨"number", none, .number⟩),
    (⟨"string"⟩, ⟨"string", none, .string⟩),
    (⟨"undefined"⟩, ⟨"undefined", none, .undefined⟩),
    (⟨"string | Point"⟩, ⟨"string | Point", none, .union [⟨"string"⟩, ⟨"Point"⟩]⟩),
    (⟨"number | undefined"⟩,
      ⟨"number | undefined", none, .union [⟨"number"⟩, ⟨"undefined"⟩]⟩),
    (⟨"Point"⟩, ⟨"Point", some ⟨"Point"⟩,
      .object { ObjectType.blank with properties := [⟨"x"⟩] }⟩),
    (⟨"Mark"⟩, ⟨"Mark", some ⟨"Mark"⟩,
      .object { ObjectType.blank with properties := [⟨"at"⟩, ⟨"label"⟩, ⟨"size"⟩] }⟩)]
  diagnostics := []
  strictNullChecks := false

def markEnvironment : Environment :=
  ⟨markGraph, { Settings.default with generateRequired := true, useTitle := true },
    { SymbolTable.empty with all := .ofEntries [("Mark", ⟨"Mark"⟩)] }⟩

theorem unionsTellApart_mark (dialect : Dialect) (root : TypeId) :
    UnionsTellApart dialect markEnvironment root := by
  have hinline := inlinesAbsent_withoutRefs markEnvironment
  have hpoint {tag : String} (h : BareAs markEnvironment.withoutRefs ⟨"Point"⟩ tag) : False := by
    have heq : none = some tag := bareAs_of_define hinline (by decide +kernel) h
    cases heq
  have hundefined {tag : String} (h : BareAs markEnvironment.withoutRefs ⟨"undefined"⟩ tag) :
      tag = "undefined" := by
    have heq : some "undefined" = some tag := bareAs_of_define hinline (by decide +kernel) h
    exact (Option.some.inj heq).symm
  have hunions : unionsOf markGraph = [[⟨"string"⟩, ⟨"Point"⟩], [⟨"number"⟩, ⟨"undefined"⟩]] := rfl
  refine unionsTellApart_of_all fun members hmembers => ?_
  rw [show unionsOf markEnvironment.graph = _ from hunions] at hmembers
  rcases List.mem_pair.1 hmembers with rfl | rfl
  · refine ⟨List.pairwise_pair.2 fun v tag tag' _ h => (hpoint h).elim, fun h => ?_⟩
    exact absurd h (by decide +kernel)
  · refine ⟨List.pairwise_pair.2 fun v tag tag' _ h _ hv => ?_, fun h => ?_⟩
    · rw [hundefined h, Dialect.hasType_undefined] at hv
      cases hv
    · exact absurd h (by decide +kernel)

theorem forType_verdicts_agree_mark :
    ∃ d p d' p', (forType markEnvironment "Mark").on .initial = (.ok d, p) ∧
      (forType markEnvironment.withoutRefs "Mark").on .initial = (.ok d', p') ∧
      d.definitions.keys = ["Point"] ∧ d'.definitions = [] ∧ ∀ dialect v,
        Accepts dialect d v ∧ Accepts dialect d' v ∨
          Rejects dialect d v ∧ Rejects dialect d' v := by
  obtain ⟨d, p, h, hcheck⟩ : ∃ d p, (forType markEnvironment "Mark").on .initial = (.ok d, p) ∧
      decide (d.definitions.keys = ["Point"]) = true := Run.exists_ok (by decide +kernel)
  obtain ⟨d', p', h', hcheck'⟩ : ∃ d p,
      (forType markEnvironment.withoutRefs "Mark").on .initial = (.ok d, p) ∧
      d.definitions.isEmpty = true := Run.exists_ok (by decide +kernel)
  have hplain : IsPlain markEnvironment.graph := by decide +kernel
  have hnames : NamesIndependent markEnvironment.graph := by decide +kernel
  obtain ⟨_, _, -, hroot, -⟩ := forType_ok h
  have hrefers : RefersAlike markEnvironment p :=
    refersAlike_of_names hnames rfl
      (fun _ _ _ _ _ => type_of_name (by decide +kernel) rfl (by decide +kernel))
      (traced_initial.steps (typeDefinition_steps hroot))
  exact ⟨d, p, d', p', h, h', of_decide_eq_true hcheck, List.isEmpty_iff.1 hcheck',
    fun dialect => forType_verdicts_agree hplain rfl rfl (inlinesAbsent_of_names hnames rfl)
      (sameAbsent_of_names hplain hnames) hrefers (fun root _ => unionsTellApart_mark dialect root)
      h h'⟩

/-! ## References that do not fit together -/

/-- Interfaces `Open` and `Closed` without properties, and a `Door` in one of these states. -/
def doorGraph : Graph where
  modules := []
  declarations := .ofEntries []
  symbols := .ofEntries [
    (⟨"Open"⟩, { Symbol.blank with name := "Open", qualifiedName := "Open" }),
    (⟨"Closed"⟩, { Symbol.blank with name := "Closed", qualifiedName := "Closed" }),
    (⟨"Door"⟩, { Symbol.blank with name := "Door", qualifiedName := "Door" }),
    (⟨"state"⟩, { Symbol.blank with name := "state", type := some ⟨"Open | Closed"⟩ })]
  types := .ofEntries [
    (⟨"Open"⟩, ⟨"Open", some ⟨"Open"⟩, .object ObjectType.blank⟩),
    (⟨"Closed"⟩, ⟨"Closed", some ⟨"Closed"⟩, .object ObjectType.blank⟩),
    (⟨"Open | Closed"⟩, ⟨"Open | Closed", none, .union [⟨"Open"⟩, ⟨"Closed"⟩]⟩),
    (⟨"Door"⟩, ⟨"Door", some ⟨"Door"⟩,
      .object { ObjectType.blank with properties := [⟨"state"⟩] }⟩)]
  diagnostics := []
  strictNullChecks := false

def doorEnvironment : Environment :=
  ⟨doorGraph, Settings.default, { SymbolTable.empty with all := .ofEntries [("Door", ⟨"Door"⟩)] }⟩

def doorValue : Json := .obj [("state", .obj [])]

def verdictOn (document : Definition) (v : Json) : Option Bool :=
  validate .strict document.definitions 6 document.toJson v

/-- With references, a value may fit both branches of a union that is one type without them. -/
theorem references_may_refuse :
    ¬ ∀ (env : Environment) (target : String) (d d' : Definition) (p p' : Progress),
      IsPlain env.graph → DistinctNames env.graph → env.settings.useRef = true →
      env.settings.useRootRef = false → env.settings.useTypeAliasRef = false →
      (forType env target).on .initial = (.ok d, p) →
      (forType env.withoutRefs target).on .initial = (.ok d', p') →
      ∀ v, Accepts .strict d v ↔ Accepts .strict d' v := by
  intro hclaim
  obtain ⟨d, p, h, hrejects⟩ : ∃ d p, (forType doorEnvironment "Door").on .initial = (.ok d, p) ∧
      (verdictOn d doorValue == some false) = true := Run.exists_ok (by decide +kernel)
  obtain ⟨d', p', h', haccepts⟩ : ∃ d p,
      (forType doorEnvironment.withoutRefs "Door").on .initial = (.ok d, p) ∧
      (verdictOn d doorValue == some true) = true := Run.exists_ok (by decide +kernel)
  have hsame := hclaim doorEnvironment "Door" d d' p p' (by decide +kernel) (by decide +kernel) rfl
    rfl rfl h h' doorValue
  have hrefused : Rejects .strict d doorValue := ⟨6, beq_iff_eq.1 hrejects⟩
  exact hrefused.not_accepts (hsame.2 ⟨6, beq_iff_eq.1 haccepts⟩)

end Document

end TypeSchema
