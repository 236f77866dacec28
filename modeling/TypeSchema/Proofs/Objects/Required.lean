import Mathlib.Logic.Basic
import TypeSchema.Proofs.Objects.Properties

/-!
# Required properties

A property whose type is a union with undefined is marked while the union is described, and a marked
property is not required.  The union is not described again where it goes by a name that is taken,
so of the properties that share such a union only the first is marked.
-/

namespace TypeSchema

theorem Json.filterMap_strs (names : List String) :
    (names.map Json.str).filterMap Json.str? = names := by
  simp [List.filterMap_map, Function.comp_def, Json.str?]

namespace Definition

variable {d : Definition}

/-- The names that a definition requires. -/
def required (d : Definition) : List String :=
  match d.find? "required" with
  | some (.arr items) => items.filterMap Json.str?
  | _ => []

theorem required_eq_strs {names : List String} (h : d.find? "required" = some (Json.strs names)) :
    d.required = names := by
  rw [required, h]
  exact Json.filterMap_strs names

theorem required_eq_nil (h : d.find? "required" = none) : d.required = [] := by
  rw [required, h]

end Definition

namespace Schema

variable {env : Environment} {describe : Describe} {p p' : Progress} {id : SymbolId}
  {type : TypeId} {ctx : Context} {d d' : Definition} {parts parts' : ObjectParts} {name : String}
  {depth : Nat}

theorem required_write (settings : Settings) (hd : d.find? "required" = none) :
    Definition.required (parts.write settings d) =
      if settings.generateRequired then parts.required else [] := by
  have hfind := find?_write_required parts settings d
  cases hsetting : settings.generateRequired with
  | false =>
      rw [hsetting, Bool.false_and, if_neg Bool.false_ne_true, hd] at hfind
      exact Definition.required_eq_nil hfind
  | true =>
      rw [hsetting, Bool.true_and] at hfind
      split at hfind
      · exact Definition.required_eq_strs hfind
      · rename_i hempty
        have hnil : parts.required = [] := by simpa using hempty
        rw [hd] at hfind
        rw [Definition.required_eq_nil hfind, if_pos rfl, hnil]

theorem mem_required_addResult {property : Symbol} {absent : Bool} {result : Option Definition} :
    name ∈ (parts.addResult property absent result).required ↔ name ∈ parts.required ∨
      name = property.name ∧ result.isSome = true ∧ property.isOptional = false ∧
        property.isMethod = false ∧ absent = false := by
  cases result with
  | none => simp [ObjectParts.addResult]
  | some d =>
      simp only [ObjectParts.addResult, ObjectParts.add]
      split
      · rename_i hrequired
        simp only [Bool.and_eq_true, Bool.not_eq_true'] at hrequired
        rw [Names.mem_insert, or_comm]
        simp [hrequired]
      · rename_i hrequired
        simp only [Bool.and_eq_true, Bool.not_eq_true', and_assoc] at hrequired
        simp [hrequired]

theorem mem_required_add {other : String} {isRequired : Bool} (hother : other ≠ name) :
    name ∈ (parts.add other d isRequired).required ↔ name ∈ parts.required := by
  unfold ObjectParts.add
  split
  · rw [Names.mem_insert]
    exact or_iff_right hother.symm
  · rfl

/-- How an object comes to require a property, or not to. -/
theorem mem_required_iff {before after : List SymbolId} {property : Symbol}
    (hsetting : env.settings.generateRequired = true) (hd : d.find? "required" = none)
    (hproperty : env.graph.symbol id = .ok property)
    (hothers : OthersNamed env.graph property.name (before ++ after))
    (hplace : placeOf env id = .ok (some (type, ctx)))
    (h : (objectDefinition env (typeDefinition env depth) (before ++ id :: after) d).on p =
      (.ok d', p')) :
    ∃ parts reached own p₁,
      (objectProperties env (typeDefinition env depth) .empty before).on p =
        (.ok parts, reached) ∧
      (typeDefinition env depth type ctx).on reached = (.ok own, p₁) ∧
      (property.name ∈ d'.required ↔ own.isIgnored = false ∧ property.isOptional = false ∧
        property.isMethod = false ∧ id ∉ p₁.mayBeAbsent) := by
  obtain ⟨declaration, place⟩ := exists_place hplace
  rw [objectDefinition, Run.on_bind_eq_ok] at h
  obtain ⟨parts', p₃, hall, hpure⟩ := h
  cases hpure
  obtain ⟨parts, reached, result, p₁, hbefore, hnone, hrun, hfinal⟩ :=
    objectProperties_at (property.name ∈ ·.required) mem_required_add hproperty hothers hall
  have hbefore' : property.name ∉ parts.required := fun h => List.not_mem_nil (hnone.1 h)
  rw [required_write env.settings hd, if_pos hsetting, hfinal, mem_required_addResult]
  cases hrun with
  | untyped hproperty' htype =>
      obtain ⟨property', hproperty'', htype'⟩ := place.hasType
      cases hproperty'.symm.trans hproperty''
      cases htype.symm.trans htype'
  | ignored place' hrun hd =>
      cases (placeOf_eq place).symm.trans (placeOf_eq place')
      exact ⟨parts, reached, _, p₁, hbefore, hrun, by simp [hbefore', hd]⟩
  | kept place' hrun hd quiet =>
      cases (placeOf_eq place).symm.trans (placeOf_eq place')
      exact ⟨parts, reached, _, _, hbefore, hrun, by simp [hbefore', hd, quiet.marks]⟩

/-! ## Unions with undefined -/

/-- The type is a union with undefined among its members. -/
def ListsUndefined (g : Graph) (type : TypeId) : Prop :=
  ∃ node members member name, g.typeNode type = .ok node ∧ node.kind = .union members ∧
    member ∈ members ∧ g.typeNode member = .ok ⟨name, none, .undefined⟩

/-- What is annotated on a type where it stands gives it a type already. -/
def IsTyped (env : Environment) (type : TypeId) (ctx : Context) : Prop :=
  ∃ node name remarks, env.graph.typeNode type = .ok node ∧ referenceOf env type ctx = .ok name ∧
    Remarks.of env node ctx = .ok remarks ∧ (remarks.onType name.isNone).hasType = true

theorem leavesOut_of_listsUndefined (hunion : ListsUndefined env.graph type)
    (h : (typeDefinition env depth type ctx).on p = (.ok d, p')) :
    leavesOut env type ctx = true ↔ ¬ IsTyped env type ctx := by
  obtain ⟨node, members, member, _, hnode, hkind, hmember, hundefined⟩ := hunion
  have hleft : ∃ member ∈ members, isLeftOut env member = true :=
    ⟨member, hmember, isLeftOut_undefined hundefined⟩
  have hstands : ∃ name remarks, referenceOf env type ctx = .ok name ∧
      Remarks.of env node ctx = .ok remarks := by
    obtain ⟨rest, -, hrun⟩ := typeDefinition_run h
    cases hrun with
    | inlined hnode' hremarks hname | known hnode' hremarks hname | new hnode' hremarks hname =>
        cases hnode.symm.trans hnode'
        exact ⟨_, _, hname, hremarks⟩
  obtain ⟨name, remarks, hname, hremarks⟩ := hstands
  constructor
  · rintro hleaves ⟨node₁, name₁, remarks₁, hnode₁, hname₁, hremarks₁, htyped⟩
    obtain ⟨node₂, name₂, remarks₂, _, hnode₂, hname₂, hremarks₂, -, htype, -⟩ :=
      leavesOut_iff.1 hleaves
    cases hnode₁.symm.trans hnode₂
    cases hname₁.symm.trans hname₂
    cases hremarks₁.symm.trans hremarks₂
    rw [htyped] at htype
    cases htype
  · intro huntyped
    refine leavesOut_iff.2 ⟨node, name, remarks, members, hnode, hname, hremarks, hkind, ?_, hleft⟩
    exact Bool.eq_false_iff.2 fun htyped =>
      huntyped ⟨node, name, remarks, hnode, hname, hremarks, htyped⟩

/-- A property whose type is a union with undefined is required if nothing else speaks against it,
if it was not marked before it was reached, and if its union is not described in its place: an
annotation says its type, or it goes by a name that was taken before. -/
theorem union_with_undefined_required_iff (before after : List SymbolId) {property : Symbol}
    (hsetting : env.settings.generateRequired = true) (hd : d.find? "required" = none)
    (hproperty : env.graph.symbol id = .ok property)
    (hothers : OthersNamed env.graph property.name (before ++ after))
    (hplace : placeOf env id = .ok (some (type, ctx)))
    (hunion : ListsUndefined env.graph type)
    (h : (objectDefinition env (typeDefinition env depth) (before ++ id :: after) d).on p =
      (.ok d', p')) :
    ∃ parts reached own p₁,
      (objectProperties env (typeDefinition env depth) .empty before).on p =
        (.ok parts, reached) ∧
      (typeDefinition env depth type ctx).on reached = (.ok own, p₁) ∧
      (property.name ∈ d'.required ↔ own.isIgnored = false ∧ property.isOptional = false ∧
        property.isMethod = false ∧ id ∉ reached.mayBeAbsent ∧
        (IsTyped env type ctx ∨ ∃ name, referenceOf env type ctx = .ok (some name) ∧
          name ∈ reached.registry.keys)) := by
  obtain ⟨declaration, place⟩ := exists_place hplace
  obtain ⟨parts, reached, own, p₁, hbefore, hown, hrequired⟩ :=
    mem_required_iff hsetting hd hproperty hothers hplace h
  refine ⟨parts, reached, own, p₁, hbefore, hown, hrequired.trans ?_⟩
  have hmarked := marked_iff hplace place.property hown
  rw [leavesOut_of_listsUndefined hunion hown] at hmarked
  refine and_congr_right fun _ => and_congr_right fun _ => and_congr_right fun _ => ?_
  rw [hmarked, not_or, not_and_or, not_not]
  simp only [not_forall, not_not, exists_prop]

/-! ## A shared alias of a union -/

/-- An interface `Range` whose properties `low` and `high` are both of the type `Bound`, which is an
alias of `number | undefined`. -/
def rangeGraph : Graph where
  modules := []
  declarations := .ofEntries [
    (⟨"low"⟩, { Declaration.blank with kind := .property, typeReference := some ⟨"Bound"⟩ }),
    (⟨"high"⟩, { Declaration.blank with kind := .property, typeReference := some ⟨"Bound"⟩ })]
  symbols := .ofEntries [
    (⟨"Bound"⟩, { Symbol.blank with name := "Bound", qualifiedName := "Bound" }),
    (⟨"low"⟩, { Symbol.blank with
      name := "low", type := some ⟨"number | undefined"⟩, declarations := [⟨"low"⟩] }),
    (⟨"high"⟩, { Symbol.blank with
      name := "high", type := some ⟨"number | undefined"⟩, declarations := [⟨"high"⟩] })]
  types := .ofEntries [
    (⟨"number"⟩, ⟨"number", none, .number⟩),
    (⟨"undefined"⟩, ⟨"undefined", none, .undefined⟩),
    (⟨"number | undefined"⟩,
      ⟨"number | undefined", none, .union [⟨"number"⟩, ⟨"undefined"⟩]⟩),
    (⟨"Range"⟩,
      ⟨"Range", none, .object { ObjectType.blank with properties := [⟨"low"⟩, ⟨"high"⟩] }⟩)]
  diagnostics := []
  strictNullChecks := false

def rangeEnvironment : Environment :=
  ⟨rangeGraph, { Settings.default with useTypeAliasRef := true, generateRequired := true }, .empty⟩

def boundPlace (id : SymbolId) : Context := ⟨true, .oneOf, some id, some ⟨"Bound"⟩⟩

theorem listsUndefined_bound : ListsUndefined rangeGraph ⟨"number | undefined"⟩ :=
  ⟨_, _, ⟨"undefined"⟩, "undefined", rfl, rfl, by decide, rfl⟩

def highSymbol : Symbol :=
  { Symbol.blank with
    name := "high", type := some ⟨"number | undefined"⟩, declarations := [⟨"high"⟩] }

theorem low_named : OthersNamed rangeGraph "high" [⟨"low"⟩] := by
  intro other hother symbol hsymbol
  cases List.mem_singleton.1 hother
  cases hsymbol
  decide

def describeRange : Describing Definition :=
  objectDefinition rangeEnvironment (typeDefinition rangeEnvironment maxDepth)
    [⟨"low"⟩, ⟨"high"⟩] Dict.empty

theorem range_requires_high :
    ∃ d p, describeRange.on .initial = (.ok d, p) ∧ "high" ∈ d.required := by
  obtain ⟨d, p, hrun, hcheck⟩ : ∃ d p, describeRange.on .initial = (.ok d, p) ∧
      decide (d.required = ["high"]) = true := Run.exists_ok (by decide +kernel)
  exact ⟨d, p, hrun, by rw [of_decide_eq_true hcheck]; exact List.mem_cons_self⟩

theorem union_with_undefined_required_iff_range :
    ∃ d p, describeRange.on .initial = (.ok d, p) ∧
    ∃ parts reached own p₁,
      (objectProperties rangeEnvironment (typeDefinition rangeEnvironment maxDepth) .empty
        [⟨"low"⟩]).on .initial = (.ok parts, reached) ∧
      (typeDefinition rangeEnvironment maxDepth ⟨"number | undefined"⟩
        (boundPlace ⟨"high"⟩)).on reached = (.ok own, p₁) ∧
      ("high" ∈ d.required ↔ own.isIgnored = false ∧ highSymbol.isOptional = false ∧
        highSymbol.isMethod = false ∧ ⟨"high"⟩ ∉ reached.mayBeAbsent ∧
        (IsTyped rangeEnvironment ⟨"number | undefined"⟩ (boundPlace ⟨"high"⟩) ∨
          ∃ name, referenceOf rangeEnvironment ⟨"number | undefined"⟩ (boundPlace ⟨"high"⟩) =
            .ok (some name) ∧ name ∈ reached.registry.keys)) := by
  obtain ⟨d, p, hrun, -⟩ := range_requires_high
  exact ⟨d, p, hrun, union_with_undefined_required_iff [⟨"low"⟩] [] rfl rfl rfl low_named rfl
    listsUndefined_bound hrun⟩

/-- A property whose type is a union with undefined may be required. -/
theorem union_with_undefined_may_be_required :
    ¬ ∀ (env : Environment) (depth : Nat) (p p' : Progress) (before after : List SymbolId)
        (id : SymbolId) (property : Symbol) (type : TypeId) (d d' : Definition),
      env.settings.generateRequired = true → d.find? "required" = none →
      env.graph.symbol id = .ok property → property.type = some type →
      OthersNamed env.graph property.name (before ++ after) → ListsUndefined env.graph type →
      (objectDefinition env (typeDefinition env depth) (before ++ id :: after) d).on p =
        (.ok d', p') → property.name ∉ d'.required := by
  intro hclaim
  obtain ⟨d, p, hrun, hhigh⟩ := range_requires_high
  exact hclaim rangeEnvironment maxDepth .initial p [⟨"low"⟩] [] ⟨"high"⟩ highSymbol
    ⟨"number | undefined"⟩ Dict.empty d rfl rfl rfl rfl low_named listsUndefined_bound hrun hhigh

end Schema

end TypeSchema
