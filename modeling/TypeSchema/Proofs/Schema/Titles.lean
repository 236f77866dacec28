import TypeSchema.Proofs.References.Pointed
import TypeSchema.Proofs.References.Stored
import TypeSchema.Proofs.Schema.Overlay

/-!
# Titles of definitions

A definition that is registered bears its name as its title, and any other one a title that is
annotated.  No shape writes a title; but a union of which one member is left takes over whatever the
definition of the member says, and so its title if the member is inlined and annotated with one.
-/

namespace TypeSchema.Schema

/-! ## Titles that unions take over -/

/-- The type is inlined as a member of a union, and its title there is annotated or that of a member
which is left of the type itself. -/
inductive BringsTitle (env : Environment) : TypeId → Prop where
  | annotated {type node remarks title}
      (hname : referenceOf env type (Context.nested env.settings) = .ok none)
      (hnode : env.graph.typeNode type = .ok node)
      (hremarks : Remarks.of env node (Context.nested env.settings) = .ok remarks)
      (htitle : (remarks.onType true).find? "title" = some title) : BringsTitle env type
  | left {type member} (hname : referenceOf env type (Context.nested env.settings) = .ok none)
      (hleaves : Leaves env type member) (hmember : BringsTitle env member) : BringsTitle env type

/-- The type is a union of which a member with a title is left. -/
def LeavesTitle (env : Environment) (type : TypeId) : Prop :=
  ∃ member, Leaves env type member ∧ BringsTitle env member

/-- A definition that was made for a member of a union has a title only if the member brings it. -/
structure BringsOnly (env : Environment) (m : Described) : Prop where
  title : ∀ title, m.definition.find? "title" = some title →
    m.ctx = Context.nested env.settings → BringsTitle env m.type
  undefined : m.definition.bareType = some "undefined" →
    m.ctx = Context.nested env.settings → Vanishes env m.type

variable {env : Environment} {made : List Described} {type : TypeId} {node : TypeNode}
  {ctx : Context} {d d' : Definition} {members : List TypeId} {parts : UnionParts}
  {remarks : Remarks} {p p' : Progress} {depth : Nat} {name : String}

theorem title_of_mem_branches {branch : Definition} {title : Json} (h : branch ∈ parts.branches)
    (htitle : branch.find? "title" = some title) : branch ∈ parts.schemas := by
  obtain hschema | ⟨values, rfl⟩ | rfl := mem_branches h
  · exact hschema
  · unfold UnionParts.enumSchema at htitle
    rw [Dict.find?_insert_of_ne _ (by decide)] at htitle
    split at htitle <;> cases htitle
  · rw [find?_setTypes_of_ne _ (by decide)] at htitle
    cases htitle

theorem union_title (hnode : env.graph.typeNode type = .ok node)
    (hkind : node.kind = .union members) (h : Sorts env .empty members made parts)
    (hmade : ∀ m ∈ made, BringsOnly env m) (keyword : UnionKeyword) (d : Definition) :
    LeavesTitle env type ∨ (parts.write keyword d).find? "title" = d.find? "title" := by
  rcases write_cases parts keyword d with heq | ⟨only, honly, heq⟩ | ⟨items, heq⟩
  · rw [heq]
    exact .inr rfl
  · rw [heq, Dict.find?_merge]
    cases htitle : only.find? "title" with
    | none => exact .inr rfl
    | some title =>
        have hschema := title_of_mem_branches (honly ▸ List.mem_singleton.2 rfl) htitle
        obtain ⟨m, hm, rfl, hctx, hleaves⟩ :=
          leaves_of_only hnode hkind h (fun m hm => (hmade m hm).undefined) honly hschema
        exact .inl ⟨m.type, hleaves, (hmade m hm).title title htitle hctx⟩
  · rw [heq, Dict.find?_insert_of_ne _ (by cases keyword <;> decide)]
    exact .inr rfl

theorem completed_title (hnode : env.graph.typeNode type = .ok node)
    (h : Completed env node ctx d made d') (hmade : ∀ m ∈ made, BringsOnly env m) :
    LeavesTitle env type ∨ d'.find? "title" = d.find? "title" := by
  cases h with
  | annotated => exact .inr rfl
  | @shaped shape _ _ _ hshape hrendered =>
      have htells := Shape.tells_ofNode hshape
      cases shape with
      | union members =>
          cases hrendered with
          | union hsorts => exact union_title hnode (htells.union members rfl) hsorts hmade _ d
      | map key value => cases key <;> exact .inr (find?_of_not_mayWrite hrendered rfl)
      | _ => exact .inr (find?_of_not_mayWrite hrendered rfl)

/-! ## Descriptions -/

theorem title_of_widen {title : Json} (h : (remarks.widen d).find? "title" = some title) :
    d.find? "title" = some title := by
  unfold Remarks.widen at h
  split at h
  · exact Definition.find?_of_makeNullable (by decide) h
  · exact h

theorem bringsOnly_of_inlined (hnode : env.graph.typeNode type = .ok node)
    (hremarks : Remarks.of env node ctx = .ok remarks)
    (hname : referenceOf env type ctx = .ok none) (hmade : ∀ m ∈ made, BringsOnly env m)
    (hd : Completed env node ctx (remarks.onType true) made d) :
    BringsOnly env ⟨type, ctx, remarks.widen d⟩ where
  title title htitle hctx := by
    cases hctx
    rcases completed_title hnode hd hmade with ⟨member, hleaves, hmember⟩ | hsame
    · exact .left hname hleaves hmember
    · exact .annotated hname hnode hremarks (hsame ▸ title_of_widen htitle)
  undefined hbare hctx := by
    cases hctx
    exact vanishes_of_inlined hnode hremarks hd hbare

theorem bringsOnly_of_referred (hremarks : Remarks.of env node ctx = .ok remarks) (name : String) :
    BringsOnly env ⟨type, ctx, remarks.widen (remarks.onReference name)⟩ where
  title title htitle hctx := by
    cases hctx
    have hreference := title_of_widen htitle
    rw [Remarks.onReference, remarks_standing hremarks] at hreference
    cases hreference
  undefined hbare hctx := by
    cases hctx
    exact absurd hbare (reference_bareType hremarks name _)

theorem typeDefinition_bringsOnly
    (h : (typeDefinition env depth type ctx).on p = (.ok d, p')) :
    BringsOnly env ⟨type, ctx, d⟩ := by
  apply typeDefinition_induction (R := fun type ctx _ d _ => BringsOnly env ⟨type, ctx, d⟩) ?_ h
  intro depth ih type ctx p d p' hrun
  cases hrun.described with
  | inlined hnode hremarks hname hmade hd =>
      exact bringsOnly_of_inlined hnode hremarks hname (hmade.forall_made ih) hd
  | known _ hremarks | new _ hremarks => exact bringsOnly_of_referred hremarks _

/-! ## What is given and what is stored -/

/-- What is stored under a name has it as its title, or else the title that is annotated, unless a
member with a title is left of the type. -/
def TitleStored (env : Environment) : Stored := fun _ name type ctx d =>
  ∃ node remarks, env.graph.typeNode type = .ok node ∧ Remarks.of env node ctx = .ok remarks ∧
    (LeavesTitle env type ∨
      d.find? "title" = (titled env.settings name (remarks.onType false)).find? "title")

theorem typeDefinition_storesTitles (h : (typeDefinition env depth type ctx).on p = (.ok d, p'))
    (hp : Stores (TitleStored env) p) : Stores (TitleStored env) p' := by
  apply typeDefinition_stores ⟨fun _ hd => hd⟩ ?_ h hp
  intro depth type ctx name node remarks made d p p' hnode hremarks hmade hd
  have htitle := completed_title hnode hd (hmade.forall_made typeDefinition_bringsOnly)
  exact ⟨node, remarks, hnode, hremarks, htitle⟩

theorem inlined_title (h : (typeDefinition env depth type ctx).on p = (.ok d, p'))
    (hname : ∀ name, referenceOf env type ctx ≠ .ok (some name)) :
    ∃ node remarks, env.graph.typeNode type = .ok node ∧ Remarks.of env node ctx = .ok remarks ∧
      (LeavesTitle env type ∨ remarks.isNullable = true ∨
        d.find? "title" = (remarks.onType true).find? "title") := by
  obtain ⟨rest, -, hdescribed⟩ := typeDefinition_ok h
  cases hdescribed with
  | @inlined _ node remarks made d hnode hremarks _ hmade hd =>
      refine ⟨node, remarks, hnode, hremarks, ?_⟩
      rcases completed_title hnode hd (hmade.forall_made typeDefinition_bringsOnly) with
        hleft | hsame
      · exact .inl hleft
      · cases hnullable : remarks.isNullable with
        | true => exact .inr (.inl rfl)
        | false =>
            rw [Remarks.widen, hnullable, if_neg Bool.false_ne_true]
            exact .inr (.inr hsame)
  | known _ _ href | new _ _ href => exact absurd href (hname _)

end TypeSchema.Schema
