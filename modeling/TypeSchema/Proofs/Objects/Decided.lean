import TypeSchema.Proofs.Objects.Properties

/-!
# Decided properties

It is decided whether a property is marked once it is marked, once its type goes by a name that is
taken, and at once if it cannot be absent.  The description of the property decides it, and no other
description changes what was decided.
-/

namespace TypeSchema.Schema

open Relation (ReflTransGen)

variable {env : Environment} {describe : Describe} {p p' : Progress} {id other : SymbolId}
  {type : TypeId} {ctx : Context} {d : Definition} {name : String} {depth : Nat}

/-! ## Properties whose name is taken -/

/-- Where the name of a type is taken, its description goes no further, even if it fails. -/
theorem describeType_marks_of_taken (hname : referenceOf env type ctx = .ok (some name))
    (taken : name ∈ p.registry.keys) :
    ((describeType env describe type ctx).on p).2.mayBeAbsent = p.mayBeAbsent := by
  simp only [referenceOf, outcome_bind_eq_ok] at hname
  obtain ⟨node, hnode, symbol, hsymbol, hname⟩ := hname
  have hregistered : (Describing.isRegistered name).on p = (.ok (p.registry.contains name), p) :=
    rfl
  simp only [describeType, Run.on_bind, Run.on_ofExcept, hnode, hsymbol, hname]
  cases Remarks.of env node ctx with
  | error failure => rfl
  | ok remarks =>
      simp only [registerType, Run.on_bind, hregistered, Dict.contains_iff_mem_keys.2 taken]
      rfl

/-- Once the name is taken, the property is not marked any more. -/
structure Spares (name : String) (id : SymbolId) (p p' : Progress) : Prop where
  keys : p.registry.keys ⊆ p'.registry.keys
  history : p.history ⊆ p'.history
  marks : name ∈ p.registry.keys → id ∈ p'.mayBeAbsent → id ∈ p.mayBeAbsent

theorem spares_of_steps (h : ReflTransGen (Step env) p p')
    (hmarks : name ∈ p.registry.keys → id ∈ p'.mayBeAbsent → id ∈ p.mayBeAbsent) :
    Spares name id p p' :=
  ⟨keys_subset_of_steps h, history_subset_of_steps h, hmarks⟩

theorem allows_spares : Allows env (Spares name id) where
  unmarked hstep heq := spares_of_steps (.single hstep) fun _ hid => heq ▸ hid
  remembers h := h.history

theorem spares_of_moves (h : ReflTransGen (Spares name id) p p') : Spares name id p p' := by
  induction h with
  | refl => exact ⟨List.Subset.refl _, List.Subset.refl _, fun _ hid => hid⟩
  | tail _ hstep ih =>
      exact ⟨List.Subset.trans ih.keys hstep.keys, List.Subset.trans ih.history hstep.history,
        fun taken hid => ih.marks taken (hstep.marks (ih.keys taken) hid)⟩

/-- In the property's own place nothing is described once the name is taken; in all other places
other properties are marked. -/
theorem typeDefinition_spares {own : TypeId} {ownCtx : Context}
    (hplace : placeOf env id = .ok (some (own, ownCtx)))
    (hname : referenceOf env own ownCtx = .ok (some name)) (hin : InPlace env type ctx) :
    Run.Moves (Spares name id) (typeDefinition env depth type ctx) := by
  induction depth generalizing type ctx with
  | zero => exact (Run.Moves.ofExcept _).bind fun _ => .throw _
  | succ depth ih =>
      by_cases hid : ctx.property = some id
      · cases (hin id hid).symm.trans hplace
        refine fun p => .single (spares_of_steps (typeDefinition_moves _ _ _ p) ?_)
        intro taken hmarked
        rwa [typeDefinition, describeType_marks_of_taken hname taken] at hmarked
      · refine describeType_moves allows_spares (fun h => ih h.inPlace) fun {other p} hmark => ?_
        have hstep : Step env p (p.markAbsent other) := .markAbsent p other
        refine spares_of_steps (.single hstep) fun _ hmarked => ?_
        refine (mem_markAbsent.1 hmarked).resolve_left fun heq => hid ?_
        rw [heq]
        exact hmark.property

/-! ## Properties that are decided -/

/-- It is known whether the property is marked. -/
inductive Decided (env : Environment) (id : SymbolId) (p : Progress) : Prop where
  | marked (h : id ∈ p.mayBeAbsent)
  | present (h : mayBeAbsent env id = false)
  | known (type : TypeId) (ctx : Context) (name : String)
      (hplace : placeOf env id = .ok (some (type, ctx)))
      (hname : referenceOf env type ctx = .ok (some name)) (taken : name ∈ p.registry.keys)

theorem Decided.mono (h : Decided env id p) (hkeys : p.registry.keys ⊆ p'.registry.keys)
    (hmarks : p.mayBeAbsent ⊆ p'.mayBeAbsent) : Decided env id p' := by
  cases h with
  | marked h => exact .marked (hmarks h)
  | present h => exact .present h
  | known type ctx name hplace hname taken =>
      exact .known type ctx name hplace hname (hkeys taken)

theorem Decided.quiet (h : Decided env id p) (quiet : Quiet p p') : Decided env id p' :=
  h.mono (quiet.registry ▸ List.Subset.refl _) quiet.marks

theorem Decided.described (h : Decided env id p)
    (hd : (typeDefinition env depth type ctx).on p = (.ok d, p')) : Decided env id p' :=
  h.mono (keys_subset_of_steps (typeDefinition_steps hd)) (typeDefinition_marks_subset hd)

/-- The description of a property's type in its place decides it. -/
theorem decided_of_described (hplace : placeOf env id = .ok (some (type, ctx)))
    (hproperty : ctx.property = some id)
    (h : (typeDefinition env depth type ctx).on p = (.ok d, p')) : Decided env id p' := by
  cases hleaves : leavesOut env type ctx with
  | false => exact .present ((mayBeAbsent_eq hplace).trans hleaves)
  | true =>
      by_cases hknown : ∃ name, referenceOf env type ctx = .ok (some name) ∧
          name ∈ p.registry.keys
      · obtain ⟨name, hname, taken⟩ := hknown
        exact .known type ctx name hplace hname
          (keys_subset_of_steps (typeDefinition_steps h) taken)
      · exact .marked (marked_of_leavesOut h hproperty hleaves
          fun name hname taken => hknown ⟨name, hname, taken⟩)

/-- What is decided stays as it is, whatever is described. -/
theorem Decided.marked_iff (hdecided : Decided env id p) (hin : InPlace env type ctx)
    (h : (typeDefinition env depth type ctx).on p = (.ok d, p')) :
    id ∈ p'.mayBeAbsent ↔ id ∈ p.mayBeAbsent := by
  refine ⟨fun hmarked => ?_, fun hmarked => typeDefinition_marks_subset h hmarked⟩
  have hlast : ((typeDefinition env depth type ctx).on p).2 = p' := congrArg Prod.snd h
  cases hdecided with
  | marked hold => exact hold
  | present hpresent =>
      refine (typeDefinition_marks hin (hlast ▸ hmarked)).resolve_right ?_
      rw [hpresent]
      exact Bool.false_ne_true
  | known own ownCtx name hplace hname taken =>
      have hspares : Spares name id p ((typeDefinition env depth type ctx).on p).2 :=
        spares_of_moves (typeDefinition_spares hplace hname hin p)
      rw [hlast] at hspares
      exact hspares.marks taken hmarked

/-! ## Properties of an object -/

variable {result : Option Definition} {parts parts' : ObjectParts} {properties : List SymbolId}

theorem PropertyPlace.inPlace {declaration : Option Declaration}
    (h : PropertyPlace env id declaration type ctx) : InPlace env type ctx :=
  (Inside.property h).inPlace

/-- After a property is described, it is decided. -/
theorem PropertyRun.decided (h : PropertyRun env (typeDefinition env depth) id p result p') :
    Decided env id p' := by
  cases h with
  | untyped hproperty htype quiet => exact .present (mayBeAbsent_untyped hproperty htype)
  | ignored place hrun => exact decided_of_described (placeOf_eq place) place.property hrun
  | kept place hrun _ quiet =>
      exact (decided_of_described (placeOf_eq place) place.property hrun).quiet quiet.quiet

/-- A property that is decided stays so while another one is described. -/
theorem PropertyRun.keeps (h : PropertyRun env (typeDefinition env depth) other p result p')
    (hdecided : Decided env id p) :
    Decided env id p' ∧ (id ∈ p'.mayBeAbsent ↔ id ∈ p.mayBeAbsent) := by
  cases h with
  | untyped _ _ quiet => exact ⟨hdecided.quiet quiet.quiet, by rw [quiet.marks]⟩
  | ignored place hrun =>
      exact ⟨hdecided.described hrun, hdecided.marked_iff place.inPlace hrun⟩
  | kept place hrun _ quiet =>
      refine ⟨(hdecided.described hrun).quiet quiet.quiet, ?_⟩
      rw [quiet.marks]
      exact hdecided.marked_iff place.inPlace hrun

theorem objectProperties_marked_iff
    (h : (objectProperties env (typeDefinition env depth) parts properties).on p =
      (.ok parts', p')) (hdecided : Decided env id p) :
    id ∈ p'.mayBeAbsent ↔ id ∈ p.mayBeAbsent := by
  induction properties generalizing parts p with
  | nil =>
      cases h
      rfl
  | cons first rest ih =>
      obtain ⟨parts₁, p₁, hfirst, hrest⟩ := objectProperties_cons.1 h
      obtain ⟨property, result, -, hrun, -⟩ := objectProperty_run hfirst
      obtain ⟨hdecided₁, hmarked⟩ := hrun.keeps hdecided
      exact (ih hrest hdecided₁).trans hmarked

end TypeSchema.Schema
