import TypeSchema.Proofs.References.Origin
import TypeSchema.Proofs.References.Resolution

/-!
# Names are written once

The registry is written twice for every name: when the name is reserved, and when the definition of
its type is stored.  In between there may be any number of descriptions, which may meet the name
again, but no other type is stored under it and it is not reserved again.  The names that are only
reserved are those of the descriptions that are under way, so there are none after a description at
the top; what was registered before it is left where it is and as it is.
-/

namespace TypeSchema

/-! ## Writes in the history -/

def Event.reserves? : Event → Option String
  | .reserved name _ _ => some name
  | _ => none

def Event.fills? : Event → Option String
  | .filled name _ => some name
  | _ => none

namespace Progress

/-- The names that were reserved, latest first, as often as they were. -/
def reservedNames (p : Progress) : List String := p.history.filterMap Event.reserves?

/-- The names under which definitions were stored, latest first, as often as they were. -/
def filledNames (p : Progress) : List String := p.history.filterMap Event.fills?

section

variable (p : Progress) (name : String) (type : TypeId) (ctx : Context) (d : Definition)

@[simp] theorem reservedNames_reserve :
    (p.reserve name type ctx).reservedNames = name :: p.reservedNames := rfl

@[simp] theorem reservedNames_fill : (p.fill name type d).reservedNames = p.reservedNames := rfl

@[simp] theorem filledNames_reserve : (p.reserve name type ctx).filledNames = p.filledNames := rfl

@[simp] theorem filledNames_fill :
    (p.fill name type d).filledNames = name :: p.filledNames := rfl

end

theorem mem_reservedNames {p : Progress} {name : String} {type : TypeId} {ctx : Context}
    (h : .reserved name type ctx ∈ p.history) : name ∈ p.reservedNames :=
  List.mem_filterMap.2 ⟨_, h, rfl⟩

end Progress

namespace Schema

open Relation (ReflTransGen)

variable {env : Environment} {describe : Describe} {p p₁ p' : Progress} {name : String}
  {type : TypeId} {ctx : Context} {d : Definition} {made : List Described}
  {calls : List (TypeId × Context)} {outcomes : List (Except Failure Definition)}

/-! ## Names reserved -/

/-- The keys of the registry are the names that were reserved, in this order. -/
def ReservesKeys (p : Progress) : Prop := p.reservedNames.reverse = p.registry.keys

theorem ReservesKeys.quiet (h : ReservesKeys p) (quiet : Quiet p p') : ReservesKeys p' := by
  unfold ReservesKeys Progress.reservedNames
  rw [quiet.history, quiet.registry]
  exact h

theorem ReservesKeys.step (h : ReservesKeys p) (hstep : Step env p p') : ReservesKeys p' := by
  cases hstep with
  | notice n => exact h.quiet (quiet_notice p n)
  | markAbsent property => exact h.quiet (quiet_markAbsent p property)
  | reserve hname free =>
      unfold ReservesKeys at h ⊢
      rw [Progress.reservedNames_reserve, List.reverse_cons, h, Progress.registry_reserve,
        Dict.keys_insert, if_neg free]
  | fill hd reserved =>
      unfold ReservesKeys at h ⊢
      have taken := List.mem_reverse.2 (Progress.mem_reservedNames reserved)
      rw [h] at taken
      rw [Progress.reservedNames_fill, h, Progress.registry_fill, Dict.keys_insert, if_pos taken]
  | refer hname taken => exact h

theorem ReservesKeys.steps (h : ReservesKeys p) (hsteps : ReflTransGen (Step env) p p') :
    ReservesKeys p' := by
  induction hsteps with
  | refl => exact h
  | tail _ hstep ih => exact ih.step hstep

/-! ## Names filled -/

/-- What is registered stays in its place, and a definition is stored for each name that is added:
as many times more as it is a key more. -/
structure Writes (p p' : Progress) : Prop where
  entries : p.registry.entries <+: p'.registry.entries
  filled : ∀ name, p'.filledNames.count name + p.registry.keys.count name =
    p.filledNames.count name + p'.registry.keys.count name

theorem Writes.of_quiet (quiet : Quiet p p') : Writes p p' := by
  obtain ⟨hregistry, hhistory, -⟩ := quiet
  constructor
  · exact hregistry ▸ List.prefix_refl _
  · intro name
    have hfilled : p'.filledNames = p.filledNames := congrArg (List.filterMap Event.fills?) hhistory
    rw [hregistry, hfilled]

theorem Writes.trans (h : Writes p p₁) (h' : Writes p₁ p') : Writes p p' := by
  refine ⟨h.entries.trans h'.entries, fun name => ?_⟩
  have hfirst := h.filled name
  have hrest := h'.filled name
  omega

theorem Writes.keys_subset (h : Writes p p') : p.registry.keys ⊆ p'.registry.keys := by
  obtain ⟨later, hlater⟩ := h.entries
  unfold Dict.keys Entries.keys
  rw [← hlater, List.map_append]
  exact List.subset_append_left _ _

theorem entries_reserve (free : name ∉ p.registry.keys) (type : TypeId) (ctx : Context) :
    (p.reserve name type ctx).registry.entries = p.registry.entries ++ [(name, Dict.empty)] := by
  have happend := Entries.insert_append_of_not_mem free (Dict.empty : Definition) []
  rwa [List.append_nil] at happend

/-- The definition is stored where the name was reserved. -/
theorem entries_fill (free : name ∉ p.registry.keys)
    (h : (p.reserve name type ctx).registry.entries <+: p₁.registry.entries) (d : Definition) :
    p.registry.entries <+: (p₁.fill name type d).registry.entries := by
  obtain ⟨later, hlater⟩ := h
  rw [entries_reserve free, List.append_assoc] at hlater
  change _ <+: Entries.insert name d p₁.registry.entries
  rw [← hlater, Entries.insert_append_of_not_mem free]
  exact List.prefix_append _ _

theorem Describes.writes
    (hdescribe : ∀ {type ctx d p p'}, (describe type ctx).on p = (.ok d, p') → Writes p p')
    (h : Describes describe p made p') : Writes p p' :=
  h.relates .of_quiet .trans hdescribe

/-- While the parts of a type are described its name is a key without a definition of its own; with
the definition the two are level again. -/
theorem Writes.register (free : name ∉ p.registry.keys)
    (h : Writes (p.reserve name type ctx) p₁) (d : Definition) :
    Writes p (p₁.fill name type d) := by
  have taken : name ∈ p₁.registry.keys := h.keys_subset (Dict.mem_keys_insert.2 (.inl rfl))
  refine ⟨entries_fill free h.entries d, fun other => ?_⟩
  have hparts := h.filled other
  rw [Progress.filledNames_reserve, Progress.registry_reserve, Dict.keys_insert, if_neg free,
    List.count_append, List.count_singleton] at hparts
  rw [Progress.filledNames_fill, Progress.registry_fill, Dict.keys_insert, if_pos taken,
    List.count_cons]
  omega

theorem TypeDescribed.writes
    (hdescribe : ∀ {type ctx d p p'}, (describe type ctx).on p = (.ok d, p') → Writes p p')
    (h : TypeDescribed env describe type ctx p d p') : Writes p p' := by
  cases h with
  | inlined _ _ _ hmade => exact hmade.writes hdescribe
  | known => exact ⟨List.prefix_refl _, fun _ => rfl⟩
  | new _ _ _ free hmade =>
      obtain ⟨hentries, hfilled⟩ := (hmade.writes hdescribe).register free _
      exact ⟨hentries, hfilled⟩

def linkedEnvironment : Environment :=
  Document.environment Document.linkedGraph .default Document.linkedTable

end Schema

end TypeSchema
