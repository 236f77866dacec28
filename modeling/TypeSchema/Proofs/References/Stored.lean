import TypeSchema.Proofs.References.Origin

/-!
# What is stored under names

Once the description of a type is stored under a name, nothing else is ever written there: the name
is free no longer, and only the type that reserved it stores under it.  So what holds of a
definition when it is stored holds of the entry of the registry from then on.  A name is registered
only to be referred to: as soon as its definition is stored, the type goes by it.
-/

namespace TypeSchema.Schema

/-- Says what is stored under a name for a type that stands in a place, as far as the run came. -/
abbrev Stored := Progress → String → TypeId → Context → Definition → Prop

/-- What holds of a definition when it is stored holds whatever happens later. -/
structure Stored.Lasts (stored : Stored) : Prop where
  later {p p' name type ctx d} (hhistory : p.history ⊆ p'.history)
    (h : stored p name type ctx d) : stored p' name type ctx d

/-- Every definition that was stored is that of the type for which its name was reserved. -/
def Stores (stored : Stored) (p : Progress) : Prop :=
  ∀ name other, .filled name other ∈ p.history → ∃ type ctx d,
    .reserved name type ctx ∈ p.history ∧ p.registry.find? name = some d ∧
      stored p name type ctx d

namespace Stores

variable {stored : Stored} {p p' : Progress} {name : String} {type : TypeId} {ctx : Context}
  {d : Definition}

theorem initial : Stores stored .initial :=
  fun _ _ h => absurd h List.not_mem_nil

variable (hlasts : stored.Lasts) (h : Stores stored p)

include hlasts h

/-- It is enough that what happens fills no name and writes none that was filled. -/
theorem of_unfilled (hhistory : p.history ⊆ p'.history)
    (hfilled : ∀ name type, .filled name type ∈ p'.history → .filled name type ∈ p.history)
    (hfind : ∀ name d, p.registry.find? name = some d → p'.registry.find? name = some d) :
    Stores stored p' := by
  intro name other hother
  obtain ⟨type, ctx, d, hreserved, hd, hstored⟩ := h name other (hfilled name other hother)
  exact ⟨type, ctx, d, hhistory hreserved, hfind name d hd, hlasts.later hhistory hstored⟩

theorem quiet (quiet : Quiet p p') : Stores stored p' := by
  apply h.of_unfilled hlasts
  · rw [quiet.history]
    exact List.Subset.refl _
  · rw [quiet.history]
    exact fun _ _ hfilled => hfilled
  · rw [quiet.registry]
    exact fun _ _ hfind => hfind

theorem refer (name : String) (type : TypeId) (ctx : Context) :
    Stores stored (p.refer name type ctx) := by
  apply h.of_unfilled hlasts
  · exact List.subset_cons_self _ _
  · simp
  · simp

/-- A name that is free was never stored under, so reserving it changes no definition. -/
theorem reserve (free : name ∉ p.registry.keys) (type : TypeId) (ctx : Context) :
    Stores stored (p.reserve name type ctx) := by
  apply h.of_unfilled hlasts
  · exact List.subset_cons_self _ _
  · simp
  · intro other d hfind
    have hne : other ≠ name := by
      rintro rfl
      exact free (Dict.mem_keys_iff.2 ⟨d, hfind⟩)
    rw [Progress.registry_reserve, Dict.find?_insert_of_ne _ hne, hfind]

theorem fill (hreserved : .reserved name type ctx ∈ p.history) (hd : stored p name type ctx d) :
    Stores stored (p.fill name type d) := by
  have hhistory : p.history ⊆ (p.fill name type d).history := List.subset_cons_self _ _
  intro other type' hother
  by_cases hname : other = name
  · rw [hname]
    exact ⟨type, ctx, d, hhistory hreserved, Dict.find?_insert_self _ _ _, hlasts.later hhistory hd⟩
  · obtain ⟨origin, place, d', hreserved', hfind, hd'⟩ :=
      h other type' (by simpa [hname] using hother)
    refine ⟨origin, place, d', hhistory hreserved', ?_, hlasts.later hhistory hd'⟩
    rw [Progress.registry_fill, Dict.find?_insert_of_ne _ hname, hfind]

end Stores

/-- At the end every name that was reserved has the definition of the type that reserved it. -/
theorem Stores.of_reserved {env : Environment} {stored : Stored} {p : Progress} {name : String}
    {type : TypeId} {ctx : Context} (h : Stores stored p) (htraced : Traced env p)
    (hsettles : Settles .initial p) (hreserved : .reserved name type ctx ∈ p.history) :
    ∃ d, p.registry.find? name = some d ∧ stored p name type ctx d := by
  have hfilled : .filled name type ∈ p.history :=
    (hsettles.filled name type ctx hreserved).resolve_left List.not_mem_nil
  obtain ⟨type', ctx', d, hreserved', hfind, hstored⟩ := h name type hfilled
  obtain ⟨rfl, rfl⟩ := htraced.once name type ctx type' ctx' hreserved hreserved'
  exact ⟨d, hfind, hstored⟩

/-! ## Runs -/

variable {env : Environment} {stored : Stored} {p p' : Progress}

theorem Describes.stores {describe : Describe} {made : List Described} (hlasts : stored.Lasts)
    (hdescribe : ∀ {type ctx d p p'}, (describe type ctx).on p = (.ok d, p') →
      Stores stored p → Stores stored p')
    (h : Describes describe p made p') (hp : Stores stored p) : Stores stored p' :=
  h.relates (R := fun p p' => Stores stored p → Stores stored p')
    (fun quiet hp => hp.quiet hlasts quiet) (fun h h' hp => h' (h hp)) hdescribe hp

/-- What holds of every definition as soon as it is completed holds of all that a run stores. -/
theorem typeDefinition_stores (hlasts : stored.Lasts)
    (hcompleted : ∀ {depth type ctx name node remarks made d p p'},
      env.graph.typeNode type = .ok node → Remarks.of env node ctx = .ok remarks →
      Describes (typeDefinition env depth) p made p' →
      Completed env node ctx (titled env.settings name (remarks.onType false)) made d →
      stored p' name type ctx d)
    {depth : Nat} {type : TypeId} {ctx : Context} {d : Definition}
    (h : (typeDefinition env depth type ctx).on p = (.ok d, p')) (hp : Stores stored p) :
    Stores stored p' := by
  revert hp
  apply typeDefinition_induction (R := fun _ _ p _ p' => Stores stored p → Stores stored p') ?_ h
  intro depth ih type ctx p d p' hrun hp
  cases hrun.described with
  | inlined _ _ _ hmade => exact hmade.stores hlasts ih hp
  | known => exact hp.refer hlasts _ _ _
  | new hnode hremarks _ free hmade hd =>
      have hparts := hmade.stores hlasts ih (hp.reserve hlasts free type ctx)
      have hreserved := (hmade.settles typeDefinition_settles).history_subset List.mem_cons_self
      have hfilled := hparts.fill hlasts hreserved (hcompleted hnode hremarks hmade hd)
      exact hfilled.refer hlasts _ _ _

/-! ## Names that are referred to -/

def IsReferred (p : Progress) (name : String) : Prop :=
  ∃ type ctx, .referred name type ctx ∈ p.history

/-- Every name that was stored under was referred to. -/
def RefersStored (p : Progress) : Prop :=
  ∀ name other, .filled name other ∈ p.history → IsReferred p name

theorem IsReferred.mono {name : String} (h : IsReferred p name)
    (hhistory : p.history ⊆ p'.history) : IsReferred p' name := by
  obtain ⟨type, ctx, hreferred⟩ := h
  exact ⟨type, ctx, hhistory hreferred⟩

theorem RefersStored.of_unfilled (h : RefersStored p) (hhistory : p.history ⊆ p'.history)
    (hfilled : ∀ name type, .filled name type ∈ p'.history → .filled name type ∈ p.history) :
    RefersStored p' :=
  fun name other hother => (h name other (hfilled name other hother)).mono hhistory

theorem RefersStored.quiet (h : RefersStored p) (quiet : Quiet p p') : RefersStored p' := by
  unfold RefersStored IsReferred
  rw [quiet.history]
  exact h

theorem Describes.refersStored {describe : Describe} {made : List Described}
    (hdescribe : ∀ {type ctx d p p'}, (describe type ctx).on p = (.ok d, p') →
      RefersStored p → RefersStored p')
    (h : Describes describe p made p') (hp : RefersStored p) : RefersStored p' :=
  h.relates (R := fun p p' => RefersStored p → RefersStored p') (fun quiet hp => hp.quiet quiet)
    (fun h h' hp => h' (h hp)) hdescribe hp

theorem typeDefinition_refersStored {depth : Nat} {type : TypeId} {ctx : Context} {d : Definition}
    (h : (typeDefinition env depth type ctx).on p = (.ok d, p')) (hp : RefersStored p) :
    RefersStored p' := by
  revert hp
  apply typeDefinition_induction (R := fun _ _ p _ p' => RefersStored p → RefersStored p') ?_ h
  intro depth ih type ctx p d p' hrun hp
  cases hrun.described with
  | inlined _ _ _ hmade => exact hmade.refersStored ih hp
  | known => exact hp.of_unfilled (List.subset_cons_self _ _) (by simp)
  | @new p₁ _ _ name _ d _ _ _ _ hmade =>
      have hreserved : RefersStored (p.reserve name type ctx) :=
        hp.of_unfilled (List.subset_cons_self _ _) (by simp)
      have hparts := hmade.refersStored ih hreserved
      -- the definition is stored and referred to at once
      intro other type' hother
      by_cases hname : other = name
      · rw [hname]
        exact ⟨type, ctx, List.mem_cons_self⟩
      · have hold : .filled other type' ∈ p₁.history := by simpa [hname] using hother
        apply (hparts other type' hold).mono
        intro event hevent
        simp [hevent]

/-- At the end the names that are registered are those that were referred to. -/
theorem RefersStored.mem_keys_iff {name : String} (h : RefersStored p) (htraced : Traced env p)
    (hsettles : Settles .initial p) : name ∈ p.registry.keys ↔ IsReferred p name := by
  constructor
  · intro hname
    obtain ⟨type, ctx, hreserved⟩ := (htraced.registered name).1 hname
    apply h name type
    exact (hsettles.filled name type ctx hreserved).resolve_left List.not_mem_nil
  · rintro ⟨type, ctx, hreferred⟩
    exact (htraced.referred name type ctx hreferred).2

end TypeSchema.Schema
