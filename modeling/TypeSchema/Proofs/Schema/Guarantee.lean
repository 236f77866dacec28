import TypeSchema.Proofs.Schema.TypeDescribed

/-!
# Guarantees

A guarantee is about what descriptions give and what is stored in the registry, both relative to the
names that are registered.  It is enough that it survives more names, that an empty definition may
be stored while a name is only reserved, and that assembling definitions that are as guaranteed
gives another such definition: then it holds along every successful description, to any depth.
-/

namespace TypeSchema.Schema

/-- The places in which the types of a document stand: those that it starts from, and those inside
other types. -/
inductive Placed (env : Environment) (roots : TypeId → Context → Prop) : TypeId → Context → Prop
    where
  | root {type ctx} (h : roots type ctx) : Placed env roots type ctx
  | inside {type ctx} (h : Inside env type ctx) : Placed env roots type ctx

structure Guarantee (env : Environment) (roots : TypeId → Context → Prop)
    (given : List String → Described → Prop)
    (stored : List String → TypeId → Context → Definition → Prop) : Prop where
  given_mono {names names' m} (hsub : names ⊆ names') (h : given names m) : given names' m
  stored_mono {names names' type ctx d} (hsub : names ⊆ names')
    (h : stored names type ctx d) : stored names' type ctx d
  reserved (names type ctx) : stored names type ctx Dict.empty
  inlined {names type ctx node remarks made d} (hplace : Placed env roots type ctx)
    (hnode : env.graph.typeNode type = .ok node) (hremarks : Remarks.of env node ctx = .ok remarks)
    (hname : referenceOf env type ctx = .ok none) (hmade : ∀ m ∈ made, given names m)
    (hd : Completed env node ctx (remarks.onType true) made d) :
    given names ⟨type, ctx, remarks.widen d⟩
  referred {names type ctx node remarks name} (hplace : Placed env roots type ctx)
    (hnode : env.graph.typeNode type = .ok node) (hremarks : Remarks.of env node ctx = .ok remarks)
    (hname : referenceOf env type ctx = .ok (some name)) (hmem : name ∈ names) :
    given names ⟨type, ctx, remarks.widen (remarks.onReference name)⟩
  filled {names type ctx node remarks name made d} (hplace : Placed env roots type ctx)
    (hnode : env.graph.typeNode type = .ok node) (hremarks : Remarks.of env node ctx = .ok remarks)
    (hname : referenceOf env type ctx = .ok (some name)) (hmade : ∀ m ∈ made, given names m)
    (hd : Completed env node ctx (titled env.settings name (remarks.onType false)) made d) :
    stored names type ctx d

variable {env : Environment} {roots : TypeId → Context → Prop}
  {given : List String → Described → Prop}
  {stored : List String → TypeId → Context → Definition → Prop}
  {describe : Describe} {p p₁ p' : Progress} {made : List Described}

/-- Every entry of the registry belongs to a type that is referred to by its name. -/
def Kept (env : Environment) (roots : TypeId → Context → Prop)
    (stored : List String → TypeId → Context → Definition → Prop) (p : Progress) : Prop :=
  ∀ name d, p.registry.find? name = some d → ∃ type ctx, Placed env roots type ctx ∧
    referenceOf env type ctx = .ok (some name) ∧ stored p.registry.keys type ctx d

theorem kept_initial : Kept env roots stored .initial := by
  intro name d h
  simp [Progress.initial] at h

/-- What descriptions make of a progress in which everything stored is guaranteed. -/
structure Secures (env : Environment) (roots : TypeId → Context → Prop)
    (given : List String → Described → Prop)
    (stored : List String → TypeId → Context → Definition → Prop)
    (p : Progress) (made : List Described) (p' : Progress) : Prop where
  keys_subset : p.registry.keys ⊆ p'.registry.keys
  kept : Kept env roots stored p'
  given : ∀ m ∈ made, given p'.registry.keys m

theorem Kept.quiet (h : Kept env roots stored p) (quiet : Quiet p p') :
    Kept env roots stored p' := by
  unfold Kept
  rw [quiet.1]
  exact h

theorem Kept.insert (g : Guarantee env roots given stored) (h : Kept env roots stored p)
    {type : TypeId} {ctx : Context} {name : String} {d : Definition}
    (hregistry : p'.registry = p.registry.insert name d) (hplace : Placed env roots type ctx)
    (hname : referenceOf env type ctx = .ok (some name))
    (hd : stored p'.registry.keys type ctx d) : Kept env roots stored p' := by
  intro other d' hother
  rw [hregistry, Dict.find?_insert] at hother
  split at hother
  · rename_i heq
    cases hother
    exact ⟨type, ctx, hplace, heq ▸ hname, hd⟩
  · obtain ⟨type', ctx', hplace', hname', hd'⟩ := h other d' hother
    refine ⟨type', ctx', hplace', hname', g.stored_mono (fun n hn => ?_) hd'⟩
    rw [hregistry]
    exact Dict.mem_keys_insert.2 (.inr hn)

def Keeps (env : Environment) (roots : TypeId → Context → Prop)
    (given : List String → Described → Prop)
    (stored : List String → TypeId → Context → Definition → Prop) (describe : Describe) : Prop :=
  ∀ {type ctx d p p'}, (describe type ctx).on p = (.ok d, p') → Placed env roots type ctx →
    Kept env roots stored p → Secures env roots given stored p [⟨type, ctx, d⟩] p'

theorem Describes.secures (g : Guarantee env roots given stored)
    (hkeeps : Keeps env roots given stored describe) (h : Describes describe p made p')
    (hplaces : ∀ m ∈ made, Placed env roots m.type m.ctx) (hp : Kept env roots stored p) :
    Secures env roots given stored p made p' := by
  induction h with
  | nil quiet =>
      exact ⟨fun name hname => quiet.1 ▸ hname, hp.quiet quiet, fun m hm => by simp at hm⟩
  | cons quiet first _ ih =>
      have hfirst := hkeeps first (hplaces _ List.mem_cons_self) (hp.quiet quiet)
      have hrest := ih (fun m hm => hplaces m (List.mem_cons_of_mem _ hm)) hfirst.kept
      refine ⟨fun name hname => hrest.keys_subset (hfirst.keys_subset (quiet.1 ▸ hname)),
        hrest.kept, fun m hm => ?_⟩
      rcases List.mem_cons.1 hm with rfl | hm
      · exact g.given_mono hrest.keys_subset (hfirst.given _ List.mem_cons_self)
      · exact hrest.given m hm

theorem TypeDescribed.secures (g : Guarantee env roots given stored)
    (hkeeps : Keeps env roots given stored describe) {type : TypeId} {ctx : Context}
    {d : Definition} (h : TypeDescribed env describe type ctx p d p')
    (hplace : Placed env roots type ctx) (hp : Kept env roots stored p) :
    Secures env roots given stored p [⟨type, ctx, d⟩] p' := by
  cases h with
  | inlined hnode hremarks hname hmade hd =>
      have hparts := hmade.secures g hkeeps (fun m hm => .inside (hd.inside m hm)) hp
      exact ⟨hparts.keys_subset, hparts.kept,
        List.forall_mem_singleton.2 (g.inlined hplace hnode hremarks hname hparts.given hd)⟩
  | known hnode hremarks hname taken =>
      exact ⟨List.Subset.refl _, hp,
        List.forall_mem_singleton.2 (g.referred hplace hnode hremarks hname taken)⟩
  | @new p₁ node remarks name made d hnode hremarks hname free hmade hd =>
      -- While its parts are described, an empty definition stands under the reserved name.
      have hreserved : Kept env roots stored (p.reserve name type ctx) :=
        hp.insert g rfl hplace hname (g.reserved _ _ _)
      have hparts := hmade.secures g hkeeps (fun m hm => .inside (hd.inside m hm)) hreserved
      have hkeys : p₁.registry.keys ⊆ (p₁.fill name type d).registry.keys := fun n hn =>
        Dict.mem_keys_insert.2 (.inr hn)
      have hfilled : Kept env roots stored (p₁.fill name type d) :=
        hparts.kept.insert g rfl hplace hname <| g.stored_mono hkeys
          (g.filled hplace hnode hremarks hname hparts.given hd)
      refine ⟨fun n hn => hkeys (hparts.keys_subset (Dict.mem_keys_insert.2 (.inr hn))), hfilled,
        List.forall_mem_singleton.2 (g.referred hplace hnode hremarks hname ?_)⟩
      exact Dict.mem_keys_insert.2 (.inl rfl)

theorem Guarantee.typeDefinition (g : Guarantee env roots given stored) (depth : Nat) :
    Keeps env roots given stored (typeDefinition env depth) :=
  typeDefinition_induction (R := fun type ctx p d p' => Placed env roots type ctx →
    Kept env roots stored p → Secures env roots given stored p [⟨type, ctx, d⟩] p')
    fun ih _ _ _ _ _ hrun => hrun.described.secures g ih

end TypeSchema.Schema
