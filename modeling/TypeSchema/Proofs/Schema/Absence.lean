import TypeSchema.Proofs.References.Pointed
import TypeSchema.Proofs.Schema.Steps

/-!
# Properties that may be absent

Whether a property is marked as one that may be absent depends on what is described, and so on the
names that are registered at the time.  Which properties can ever be marked does not: it is read off
the graph here, and a description marks the property in whose place it stands unless it only refers
to a name that was taken before.
-/

namespace TypeSchema

open Relation (ReflTransGen)

namespace Definition

variable {d : Definition}

theorem entries_of_bareType {tag : String} (h : d.bareType = some tag) :
    d.entries = [("type", .str tag)] := by
  unfold bareType at h
  split at h
  · rename_i heq
    cases h
    exact heq
  · cases h

/-- Only the type null is left as it is; any other bare type becomes a list. -/
theorem bareType_makeNullable_of_ne {tag : String} (h : d.bareType = some tag)
    (hne : tag ≠ "null") : d.makeNullable.bareType = none := by
  have heq : d = ofType tag := Dict.ext (entries_of_bareType h)
  have hwidened : makeNullable (ofType tag) =
      (ofType tag).insert "type" (.arr [.str tag, .str "null"]) := by
    change (if tag = "null" then _ else _) = _
    rw [if_neg hne]
  rw [heq, hwidened]
  rfl

end Definition

namespace Schema

variable {env : Environment} {describe : Describe} {p p' : Progress} {type member : TypeId}
  {node : TypeNode} {ctx : Context} {d d' : Definition} {id : SymbolId} {depth : Nat}

/-- What was looked up is there, and the answer is yes. -/
def confirms : Except Failure Bool → Bool
  | .ok answer => answer
  | .error _ => false

theorem confirms_iff {outcome : Except Failure Bool} :
    confirms outcome = true ↔ outcome = .ok true := by
  cases outcome <;> simp [confirms]

/-! ## Members that are left out -/

/-- What is annotated on a type is completed to a definition that is undefined and nothing else. -/
def becomesUndefined (node : TypeNode) (d : Definition) : Bool :=
  if d.hasType then d.bareType == some "undefined"
  else
    match node.kind with
    | .undefined => d.isEmpty
    | _ => false

/-- The type has no name and is described as undefined where it is the member of a union. -/
def isLeftOut (env : Environment) (member : TypeId) : Bool := confirms do
  let ctx := Context.nested env.settings
  let node ← env.graph.typeNode member
  let name ← referenceOf env member ctx
  let remarks ← Remarks.of env node ctx
  return (Shape.literalValue node).isNone && name.isNone && !remarks.isNullable &&
    becomesUndefined node (remarks.onType true)

theorem isLeftOut_iff : isLeftOut env member = true ↔
    ∃ node remarks, env.graph.typeNode member = .ok node ∧ Shape.literalValue node = none ∧
      referenceOf env member (Context.nested env.settings) = .ok none ∧
      Remarks.of env node (Context.nested env.settings) = .ok remarks ∧
      remarks.isNullable = false ∧ becomesUndefined node (remarks.onType true) = true := by
  rw [isLeftOut, confirms_iff]
  simp only [outcome_bind_eq_ok]
  constructor
  · rintro ⟨node, hnode, name, hname, remarks, hremarks, hpure⟩
    simp only [pure, Except.pure, Except.ok.injEq, Bool.and_eq_true, Option.isNone_iff_eq_none,
      Bool.not_eq_true'] at hpure
    obtain ⟨⟨⟨hliteral, rfl⟩, hnullable⟩, hundefined⟩ := hpure
    exact ⟨node, remarks, hnode, hliteral, hname, hremarks, hnullable, hundefined⟩
  · rintro ⟨node, remarks, hnode, hliteral, hname, hremarks, hnullable, hundefined⟩
    refine ⟨node, hnode, none, hname, remarks, hremarks, ?_⟩
    simp [pure, Except.pure, hliteral, hnullable, hundefined]

theorem isLeftOut_undefined {name : String}
    (h : env.graph.typeNode member = .ok ⟨name, none, .undefined⟩) :
    isLeftOut env member = true := by
  have hname : referenceOf env member (Context.nested env.settings) = .ok none := by
    rw [referenceOf_eq h rfl]
    simp [referenceName, usesAlias, isRaw, Context.nested, Context.standing, pure, Except.pure]
  have hremarks : Remarks.of env ⟨name, none, .undefined⟩ (Context.nested env.settings) =
      .ok ⟨.empty, .empty, .empty⟩ := rfl
  exact isLeftOut_iff.2 ⟨_, _, h, rfl, hname, hremarks, rfl, rfl⟩

theorem shape_of_undefined {reffed : Option SymbolId} {shape : Shape}
    (hkind : node.kind = .undefined) (h : Shape.ofNode env.graph node reffed = .ok shape) :
    shape = .primitive "undefined" := by
  have hroot : Shape.ofNode env.graph node reffed = Shape.ofRoot env.graph node reffed := by
    unfold Shape.ofNode
    rw [hkind]
  have hliteral : Shape.literalValue node = none := by
    unfold Shape.literalValue
    rw [hkind]
  rw [hroot, Shape.ofRoot, hliteral] at h
  obtain ⟨name, -, h⟩ := outcome_bind_eq_ok.1 h
  rw [hkind] at h
  cases h
  rfl

theorem completed_undefined_iff {made : List Described} (h : Completed env node ctx d made d') :
    d'.bareType = some "undefined" ↔ becomesUndefined node d = true := by
  unfold becomesUndefined
  cases h with
  | annotated htype => simp [htype]
  | shaped htype hshape hrendered =>
      simp only [htype, Bool.false_eq_true, if_false]
      constructor
      · intro hbare
        have hprimitive := rendered_bareType hrendered htype hbare
        rw [(Shape.tells_ofNode hshape).undefined hprimitive]
        subst hprimitive
        cases hrendered
        refine Dict.isEmpty_iff.2 (Dict.eq_empty_of_find? fun key => ?_)
        by_cases hkey : key = "type"
        · rw [hkey]
          exact Definition.hasType_eq_false_iff.1 htype
        · rw [← Definition.find?_setType_of_ne d hkey "undefined"]
          exact (Definition.bareType_eq_some_iff.1 hbare).2 key hkey
      · intro h
        split at h
        · rename_i hkind
          cases shape_of_undefined hkind hshape
          cases hrendered
          rw [Dict.isEmpty_iff.1 h]
          rfl
        · cases h

theorem widen_undefined_iff {remarks : Remarks} :
    (remarks.widen d).bareType = some "undefined" ↔
      remarks.isNullable = false ∧ d.bareType = some "undefined" := by
  constructor
  · intro h
    have hbare := bareType_of_widen h
    refine ⟨?_, hbare⟩
    unfold Remarks.widen at h
    split at h
    · rw [Definition.bareType_makeNullable_of_ne hbare (by decide)] at h
      cases h
    · rename_i hnullable
      exact Bool.eq_false_iff.2 hnullable
  · rintro ⟨hnullable, hbare⟩
    rwa [Remarks.widen, hnullable]

/-- Whatever was described before, the same members are described as undefined. -/
theorem bareType_eq_undefined_iff (hmember : IsDescribed env member)
    (h : (typeDefinition env depth member (Context.nested env.settings)).on p = (.ok d, p')) :
    d.bareType = some "undefined" ↔ isLeftOut env member = true := by
  obtain ⟨node, hnode, hliteral⟩ := hmember
  obtain ⟨rest, -, hdescribed⟩ := typeDefinition_ok h
  rw [isLeftOut_iff]
  constructor
  · intro hbare
    cases hdescribed with
    | inlined hnode' hremarks hname hmade hd =>
        cases hnode.symm.trans hnode'
        obtain ⟨hnullable, hbare⟩ := widen_undefined_iff.1 hbare
        exact ⟨node, _, hnode, hliteral, hname, hremarks, hnullable,
          (completed_undefined_iff hd).1 hbare⟩
    | known _ hremarks | new _ hremarks =>
        have hreference := bareType_of_widen hbare
        rw [Remarks.onReference, remarks_standing hremarks] at hreference
        exact absurd hreference (Definition.bareType_insert_of_ne _ (by decide) _ _)
  · rintro ⟨node', remarks, hnode', -, hname, hremarks, hnullable, hundefined⟩
    cases hnode.symm.trans hnode'
    cases hdescribed with
    | inlined hnode' hremarks' _ hmade hd =>
        cases hnode.symm.trans hnode'
        cases hremarks.symm.trans hremarks'
        exact widen_undefined_iff.2 ⟨hnullable, (completed_undefined_iff hd).2 hundefined⟩
    | known _ _ hname' | new _ _ hname' => cases hname.symm.trans hname'

/-! ## Properties that may be marked -/

/-- The type is a union that no annotation gives another type, and it leaves out a member. -/
def leavesOut (env : Environment) (type : TypeId) (ctx : Context) : Bool := confirms do
  let node ← env.graph.typeNode type
  let name ← referenceOf env type ctx
  let remarks ← Remarks.of env node ctx
  match node.kind with
  | .union members =>
    return !(remarks.onType name.isNone).hasType && members.any (isLeftOut env)
  | _ => return false

theorem leavesOut_iff : leavesOut env type ctx = true ↔
    ∃ node name remarks members, env.graph.typeNode type = .ok node ∧
      referenceOf env type ctx = .ok name ∧ Remarks.of env node ctx = .ok remarks ∧
      node.kind = .union members ∧ (remarks.onType name.isNone).hasType = false ∧
      ∃ member ∈ members, isLeftOut env member = true := by
  rw [leavesOut, confirms_iff]
  simp only [outcome_bind_eq_ok]
  constructor
  · rintro ⟨node, hnode, name, hname, remarks, hremarks, h⟩
    split at h
    · rename_i members hkind
      simp only [pure, Except.pure, Except.ok.injEq, Bool.and_eq_true, Bool.not_eq_true',
        List.any_eq_true] at h
      exact ⟨node, name, remarks, members, hnode, hname, hremarks, hkind, h⟩
    · cases h
  · rintro ⟨node, name, remarks, members, hnode, hname, hremarks, hkind, htype, hmember⟩
    refine ⟨node, hnode, name, hname, remarks, hremarks, ?_⟩
    simp only [hkind, pure, Except.pure, Except.ok.injEq, Bool.and_eq_true, Bool.not_eq_true',
      List.any_eq_true]
    exact ⟨htype, hmember⟩

/-- The type of a property and the place in which it stands; a property may have no type. -/
def placeOf (env : Environment) (id : SymbolId) : Except Failure (Option (TypeId × Context)) := do
  let property ← env.graph.symbol id
  let declaration ← env.graph.firstDeclaration id
  match property.type with
  | none => return none
  | some type =>
    let reffed ← writtenSymbol env.graph declaration
    return some (type, ⟨env.settings.useRef, .oneOf, some id, reffed⟩)

theorem placeOf_eq {declaration : Option Declaration}
    (h : PropertyPlace env id declaration type ctx) : placeOf env id = .ok (some (type, ctx)) := by
  obtain ⟨⟨property, hproperty, htype⟩, hdeclared, reffed, hreffed, rfl⟩ := h
  simp only [placeOf, hproperty, hdeclared, htype, hreffed, bind, Except.bind]
  rfl

def mayBeAbsent (env : Environment) (id : SymbolId) : Bool := confirms do
  match ← placeOf env id with
  | some (type, ctx) => return leavesOut env type ctx
  | none => return false

theorem mayBeAbsent_eq (h : placeOf env id = .ok (some (type, ctx))) :
    mayBeAbsent env id = leavesOut env type ctx := by
  rw [mayBeAbsent, h]
  rfl

theorem mayBeAbsent_untyped {property : Symbol} (hproperty : env.graph.symbol id = .ok property)
    (htype : property.type = none) : mayBeAbsent env id = false := by
  unfold mayBeAbsent placeOf
  simp only [hproperty, bind, Except.bind]
  cases env.graph.firstDeclaration id with
  | error failure => rfl
  | ok declaration =>
      simp only [htype]
      rfl

/-- If the place is that of a property, then the type is the property's. -/
def InPlace (env : Environment) (type : TypeId) (ctx : Context) : Prop :=
  ∀ id, ctx.property = some id → placeOf env id = .ok (some (type, ctx))

theorem inPlace_standing (asRef : Bool) : InPlace env type (Context.standing asRef) :=
  fun _ h => by cases h

theorem Inside.inPlace (h : Inside env type ctx) : InPlace env type ctx := by
  cases h with
  | part | mapValue => exact fun _ h => by cases h
  | property place =>
      intro id hid
      obtain ⟨reffed, -, rfl⟩ := place.isWritten
      cases hid
      exact placeOf_eq place

theorem mayBeAbsent_of_mayMark (hplace : InPlace env type ctx)
    (h : MayMark env (typeDefinition env depth) type ctx id) : mayBeAbsent env id = true := by
  obtain ⟨hid, node, remarks, name, members, hnode, hremarks, hname, htype, hkind, member, hmem,
    hdescribed, d, p, p', hd, hbare⟩ := h
  rw [mayBeAbsent_eq (hplace id hid), leavesOut_iff]
  exact ⟨node, name, remarks, members, hnode, hname, hremarks, hkind, htype, member, hmem,
    (bareType_eq_undefined_iff hdescribed hd).1 hbare⟩

/-- A step that keeps what is demanded of progresses. -/
def Keeping (env : Environment) (keeps : Progress → Prop) (p p' : Progress) : Prop :=
  Step env p p' ∧ (keeps p → keeps p')

/-- What is demanded of the marks alone is kept by every step that leaves them as they are. -/
theorem allows_keeping {keeps : Progress → Prop}
    (hmarks : ∀ {p p'}, p'.mayBeAbsent = p.mayBeAbsent → keeps p → keeps p') :
    Allows env (Keeping env keeps) :=
  ⟨fun hstep heq => ⟨hstep, hmarks heq⟩, fun h => h.1.history_subset⟩

theorem kept_of_keeping {keeps : Progress → Prop} (h : ReflTransGen (Keeping env keeps) p p')
    (hp : keeps p) : keeps p' := by
  induction h with
  | refl => exact hp
  | tail _ hstep ih => exact hstep.2 ih

/-- No description, successful or not, marks a property that cannot be absent. -/
theorem typeDefinition_marks (hplace : InPlace env type ctx)
    (hid : id ∈ ((typeDefinition env depth type ctx).on p).2.mayBeAbsent) :
    id ∈ p.mayBeAbsent ∨ mayBeAbsent env id = true := by
  have hmoves : Run.Moves (Keeping env fun p' =>
      ∀ id ∈ p'.mayBeAbsent, id ∈ p.mayBeAbsent ∨ mayBeAbsent env id = true)
      (typeDefinition env depth type ctx) := by
    clear hid
    induction depth generalizing type ctx with
    | zero => exact (Run.Moves.ofExcept _).bind fun _ => .throw _
    | succ depth ih =>
        refine describeType_moves (allows_keeping fun heq h => by rwa [heq])
          (fun h => ih h.inPlace) fun hmark => ⟨.markAbsent _ _, fun hp other hother => ?_⟩
        rcases mem_markAbsent.1 hother with rfl | hold
        · exact .inr (mayBeAbsent_of_mayMark hplace hmark)
        · exact hp other hold
  exact kept_of_keeping (hmoves p) (fun _ h => .inl h) id hid

/-! ## Properties that are marked -/

theorem typeDefinition_steps (h : (typeDefinition env depth type ctx).on p = (.ok d, p')) :
    ReflTransGen (Step env) p p' := by
  have hmoves : ReflTransGen (Step env) p ((typeDefinition env depth type ctx).on p).2 :=
    typeDefinition_moves depth type ctx p
  rwa [h] at hmoves

theorem typeDefinition_marks_subset
    (h : (typeDefinition env depth type ctx).on p = (.ok d, p')) :
    p.mayBeAbsent ⊆ p'.mayBeAbsent :=
  marks_subset_of_steps (typeDefinition_steps h)

theorem Describes.marks_subset {made : List Described}
    (h : Describes (typeDefinition env depth) p made p') : p.mayBeAbsent ⊆ p'.mayBeAbsent :=
  h.relates (R := fun p p' => p.mayBeAbsent ⊆ p'.mayBeAbsent) Quiet.marks List.Subset.trans
    typeDefinition_marks_subset

theorem unionMembers_marks {members : List TypeId} {parts parts' : UnionParts}
    (h : (unionMembers env (typeDefinition env depth) (some id) parts members).on p =
      (.ok parts', p'))
    (hmember : ∃ member ∈ members, isLeftOut env member = true) : id ∈ p'.mayBeAbsent := by
  induction members generalizing p parts with
  | nil =>
      obtain ⟨_, hnone, -⟩ := hmember
      exact absurd hnone List.not_mem_nil
  | cons first rest ih =>
      simp only [unionMembers, unionMember, Run.on_bind_eq_ok, Run.on_ofExcept_eq_ok] at h
      obtain ⟨parts₁, p₁, ⟨node, _, ⟨hnode, rfl⟩, hfirst⟩, hrest⟩ := h
      obtain ⟨member, hmem, hleft⟩ := hmember
      rcases List.mem_cons.1 hmem with rfl | hmem
      · obtain ⟨made, hmade, -⟩ := unionMembers_ok hrest
        refine hmade.marks_subset ?_
        obtain ⟨node', -, hnode', hliteral, -⟩ := isLeftOut_iff.1 hleft
        cases hnode.symm.trans hnode'
        rw [hliteral, Run.on_bind_eq_ok] at hfirst
        obtain ⟨d, p₂, hd, hfirst⟩ := hfirst
        rw [(bareType_eq_undefined_iff ⟨node, hnode, hliteral⟩ hd).2 hleft] at hfirst
        cases hfirst
        exact mem_markAbsent.2 (.inl rfl)
      · exact ih hrest ⟨member, hmem, hleft⟩

theorem complete_marks {members : List TypeId}
    (h : (complete env (typeDefinition env depth) node ctx d).on p = (.ok d', p'))
    (hproperty : ctx.property = some id) (htype : d.hasType = false)
    (hkind : node.kind = .union members)
    (hmember : ∃ member ∈ members, isLeftOut env member = true) : id ∈ p'.mayBeAbsent := by
  have hshape : Shape.ofNode env.graph node ctx.reffed = .ok (.union members) := by
    unfold Shape.ofNode
    rw [hkind]
  simp only [complete, htype, Bool.false_eq_true, if_false, hshape, Run.on_bind_eq_ok,
    Run.on_ofExcept_eq_ok] at h
  obtain ⟨_, _, ⟨hunion, rfl⟩, h⟩ := h
  cases hunion
  simp only [render, unionDefinition, hproperty, Run.on_bind_eq_ok] at h
  obtain ⟨parts, p₁, hparts, hpure⟩ := h
  cases hpure
  exact unionMembers_marks hparts hmember

theorem marked_of_leavesOut (h : (typeDefinition env depth type ctx).on p = (.ok d, p'))
    (hproperty : ctx.property = some id) (hleaves : leavesOut env type ctx = true)
    (hfree : ∀ name, referenceOf env type ctx = .ok (some name) → name ∉ p.registry.keys) :
    id ∈ p'.mayBeAbsent := by
  obtain ⟨node, name, remarks, members, hnode, hname, hremarks, hkind, htype, hmember⟩ :=
    leavesOut_iff.1 hleaves
  obtain ⟨rest, rfl, hrun⟩ := typeDefinition_run h
  cases hrun with
  | inlined hnode' hremarks' hname' hcomplete =>
      cases hnode.symm.trans hnode'
      cases hname.symm.trans hname'
      cases hremarks.symm.trans hremarks'
      exact complete_marks hcomplete hproperty htype hkind hmember
  | known _ _ hname' taken => exact absurd taken (hfree _ hname')
  | new hnode' hremarks' hname' _ hcomplete =>
      cases hnode.symm.trans hnode'
      cases hname.symm.trans hname'
      cases hremarks.symm.trans hremarks'
      have hmarked := complete_marks hcomplete hproperty ((hasType_titled _ _ _).trans htype) hkind
        hmember
      exact hmarked

theorem marks_of_known {name : String} (h : (typeDefinition env depth type ctx).on p = (.ok d, p'))
    (hname : referenceOf env type ctx = .ok (some name)) (taken : name ∈ p.registry.keys) :
    p'.mayBeAbsent = p.mayBeAbsent := by
  obtain ⟨rest, -, hrun⟩ := typeDefinition_run h
  cases hrun with
  | inlined _ _ hname' => cases hname.symm.trans hname'
  | known => rfl
  | new _ _ hname' free =>
      cases hname.symm.trans hname'
      exact absurd taken free

/-- After its type is described in its place, a property is marked if it was marked before, or if
its type leaves out a member and does not go by a name that was taken before. -/
theorem marked_iff (hplace : placeOf env id = .ok (some (type, ctx)))
    (hproperty : ctx.property = some id)
    (h : (typeDefinition env depth type ctx).on p = (.ok d, p')) :
    id ∈ p'.mayBeAbsent ↔ id ∈ p.mayBeAbsent ∨ leavesOut env type ctx = true ∧
      ∀ name, referenceOf env type ctx = .ok (some name) → name ∉ p.registry.keys := by
  constructor
  · intro hid
    refine Decidable.or_iff_not_imp_left.2 fun hnew => ⟨?_, fun name hname taken => ?_⟩
    · have hinPlace : InPlace env type ctx := fun other hother => by
        cases hproperty.symm.trans hother
        exact hplace
      have hmarked : id ∈ ((typeDefinition env depth type ctx).on p).2.mayBeAbsent := by rwa [h]
      rw [← mayBeAbsent_eq hplace]
      exact (typeDefinition_marks hinPlace hmarked).resolve_left hnew
    · rw [marks_of_known h hname taken] at hid
      exact hnew hid
  · rintro (hold | ⟨hleaves, hfree⟩)
    · exact typeDefinition_marks_subset h hold
    · exact marked_of_leavesOut h hproperty hleaves hfree

end Schema

end TypeSchema
