import TypeSchema.Proofs.Annotation.Written
import TypeSchema.Proofs.Json.Sameness

/-!
# Merging what annotations write

What an annotation with points in its name writes is merged into what is there, at every level at
which both have objects.  So it stands at the path that the name spells, but if it is an object and
meets another one there, what the other has besides shows through.
-/

namespace TypeSchema.Annotations

open Json (KeysDiffer Agree)

/-- What a value becomes in the place of another. -/
def combine : Option Json → Json → Json
  | some (.obj existing), .obj nested => .obj (mergeKeywords existing nested)
  | _, value => value

variable {fields nested : Entries String Json} {key : String} {value : Json} {old : Option Json}

theorem combine_of_not_obj (h : ∀ nested, value ≠ .obj nested) (old : Option Json) :
    combine old value = value := by
  unfold combine
  split
  · exact absurd rfl (h _)
  · rfl

theorem mergeKeyword_eq (fields : Entries String Json) (key : String) (value : Json) :
    mergeKeyword fields key value =
      Entries.insert key (combine (Entries.find? key fields) value) fields := by
  cases value with
  | obj nested =>
      rw [mergeKeyword]
      split
      · rename_i existing hexisting
        rw [hexisting, combine]
      · rename_i hother
        rw [combine]
        exact fun existing _ hexisting _ => hother existing hexisting
  | _ => rw [combine_of_not_obj fun _ h => by cases h]; rfl

theorem combine_obj (old : Option Json) (nested : Entries String Json) :
    ∃ fields, combine old (.obj nested) = .obj fields := by
  unfold combine
  split
  · exact ⟨_, rfl⟩
  · exact ⟨_, rfl⟩

theorem find?_mergeKeywords (h : (Entries.keys nested).Nodup) (fields : Entries String Json)
    (key : String) :
    Entries.find? key (mergeKeywords fields nested) =
      ((Entries.find? key nested).map (combine (Entries.find? key fields))).or
        (Entries.find? key fields) := by
  induction nested generalizing fields with
  | nil => rfl
  | cons field rest ih =>
      obtain ⟨name, value⟩ := field
      obtain ⟨hname, hrest⟩ := List.nodup_cons.1 h
      rw [mergeKeywords, ih hrest, mergeKeyword_eq, Entries.find?_insert]
      by_cases hkey : key = name
      · subst hkey
        simp [Entries.find?, Entries.find?_eq_none_iff.2 hname]
      · simp [Entries.find?, hkey, Ne.symm hkey]

/-! ## Keys that differ -/

theorem keysDiffer_mergeKeywords (hfields : KeysDiffer (.obj fields))
    (h : ∀ field ∈ nested, ∀ old, (∀ v, old = some v → KeysDiffer v) →
      KeysDiffer (combine old field.2)) :
    KeysDiffer (.obj (mergeKeywords fields nested)) := by
  induction nested generalizing fields with
  | nil => exact hfields
  | cons field rest ih =>
      obtain ⟨hfield, hrest⟩ := List.forall_mem_cons.1 h
      rw [mergeKeywords, mergeKeyword_eq]
      exact ih (hfields.insert _ (hfield _ fun _ => hfields.find?)) hrest

theorem keysDiffer_combine (hold : ∀ v, old = some v → KeysDiffer v) (h : KeysDiffer value) :
    KeysDiffer (combine old value) := by
  induction value using Json.induction generalizing old with
  | obj nested ih =>
      unfold combine
      split
      · rename_i existing _ heq
        cases heq
        exact keysDiffer_mergeKeywords (hold _ rfl) fun field hfield _ hfound =>
          ih field hfield hfound ((Json.keysDiffer_obj.1 h).2 field hfield)
      · exact h
  | _ => simpa [combine] using h

/-! ## What shows through -/

mutual

/-- Nothing of the first value shows through if the second is merged into it. -/
def coveredBy : Json → Json → Bool
  | .obj existing, .obj nested => fieldsCoveredBy existing nested
  | _, _ => true
termination_by structural existing => existing

def fieldsCoveredBy : List (String × Json) → List (String × Json) → Bool
  | [], _ => true
  | (key, existing) :: rest, nested =>
    (match Entries.find? key nested with
      | some value => coveredBy existing value
      | none => false) && fieldsCoveredBy rest nested
termination_by structural existing => existing

end

theorem fieldsCoveredBy_iff : fieldsCoveredBy fields nested = true ↔
    ∀ field ∈ fields, ∃ value, Entries.find? field.1 nested = some value ∧
      coveredBy field.2 value = true := by
  induction fields with
  | nil => simp [fieldsCoveredBy]
  | cons field rest ih =>
      rw [fieldsCoveredBy, Bool.and_eq_true, ih, List.forall_mem_cons]
      refine and_congr_left' ?_
      cases Entries.find? field.1 nested <;> simp

theorem same_combine_iff {existing : Json} (hold : KeysDiffer existing) (h : KeysDiffer value) :
    (combine (some existing) value).same value = true ↔ coveredBy existing value = true := by
  induction value using Json.induction generalizing existing with
  | obj nested ih =>
      cases existing with
      | obj fields =>
          have hmerged : KeysDiffer (combine (some (.obj fields)) (.obj nested)) :=
            keysDiffer_combine (fun v hv => by cases hv; exact hold) h
          change Json.same (.obj (mergeKeywords fields nested)) _ = true ↔
            fieldsCoveredBy fields nested = true
          rw [Json.same_obj_iff hmerged.nodup h.nodup, fieldsCoveredBy_iff]
          simp only [find?_mergeKeywords h.nodup]
          constructor
          · intro hagree field hfield
            have hfound := (Entries.find?_eq_some_iff_mem hold.nodup).2 hfield
            have hkey := hagree field.1
            cases hvalue : Entries.find? field.1 nested with
            | none => simp [hvalue, hfound] at hkey
            | some value =>
                have hmem := Entries.mem_of_find?_eq_some hvalue
                simp only [hvalue, hfound, Option.map_some, Option.some_or, Json.agree_some_some]
                  at hkey
                exact ⟨value, rfl, (ih _ hmem (hold.find? hfound) (h.find? hvalue)).1 hkey⟩
          · intro hcovered key
            cases hvalue : Entries.find? key nested with
            | none =>
                cases hfound : Entries.find? key fields with
                | none => exact .none
                | some old =>
                    obtain ⟨value, hvalue', -⟩ :=
                      hcovered _ (Entries.mem_of_find?_eq_some hfound)
                    rw [hvalue] at hvalue'
                    cases hvalue'
            | some value =>
                have hmem := Entries.mem_of_find?_eq_some hvalue
                simp only [Option.map_some, Option.some_or, Json.agree_some_some]
                cases hfound : Entries.find? key fields with
                | none => exact Json.same_refl (h.find? hvalue)
                | some old =>
                    obtain ⟨value', hvalue', hold'⟩ :=
                      hcovered _ (Entries.mem_of_find?_eq_some hfound)
                    rw [hvalue] at hvalue'
                    cases hvalue'
                    exact (ih _ hmem (hold.find? hfound) (h.find? hvalue)).2 hold'
      | _ => exact iff_of_true (Json.same_refl h) rfl
  | _ => exact iff_of_true (by simpa [combine] using Json.same_refl h) (by cases existing <;> rfl)

/-! ## Paths -/

theorem field?_combine (old : Option Json) (name key : String) (value : Json) :
    (combine old (.obj [(name, value)])).field? key =
      if key = name then some (combine (old.bind (Json.field? name)) value)
      else old.bind (Json.field? key) := by
  have hnew : (Json.obj [(name, value)]).field? key = if key = name then some value else none := by
    simp [Json.field?, Entries.find?, eq_comm]
  cases old with
  | none => simpa [combine] using hnew
  | some v =>
      cases v with
      | obj fields =>
          rw [combine, mergeKeywords, mergeKeywords, mergeKeyword_eq]
          exact Entries.find?_insert name key _ fields
      | _ => simpa [combine, Json.field?] using hnew

theorem bind_follow_cons (old : Option Json) (key : String) (rest : List String) :
    old.bind (Json.follow (key :: rest)) =
      (old.bind (Json.field? key)).bind (Json.follow rest) := by
  rw [Option.bind_assoc]
  rfl

/-- What is written at a path is merged into what stands there. -/
theorem follow_combine (inner : List String) (value : Json) (old : Option Json) :
    (combine old (nest inner value)).follow inner =
      some (combine (old.bind (Json.follow inner)) value) := by
  induction inner generalizing old with
  | nil => cases old <;> rfl
  | cons name rest ih =>
      rw [nest, List.foldr_cons, ← nest, Json.follow, field?_combine, if_pos rfl, Option.bind_some,
        ih, bind_follow_cons]

/-- Two paths of which neither leads on to the other. -/
def Parted (keys keys' : List String) : Prop := ¬ keys <+: keys' ∧ ¬ keys' <+: keys

instance (keys keys' : List String) : Decidable (Parted keys keys') :=
  inferInstanceAs (Decidable (¬ keys <+: keys' ∧ ¬ keys' <+: keys))

theorem parted_cons_iff {key : String} {keys keys' : List String} :
    Parted (key :: keys) (key :: keys') ↔ Parted keys keys' := by
  simp [Parted, List.cons_prefix_cons]

/-- What is written at another path leaves a path as it is. -/
theorem follow_combine_of_parted {inner keys : List String} (h : Parted inner keys) (value : Json)
    (old : Option Json) :
    (combine old (nest inner value)).follow keys = old.bind (Json.follow keys) := by
  induction inner generalizing keys old with
  | nil => exact absurd List.nil_prefix h.1
  | cons name rest ih =>
      cases keys with
      | nil => exact absurd List.nil_prefix h.2
      | cons key keys =>
          rw [nest, List.foldr_cons, ← nest, Json.follow, field?_combine, bind_follow_cons]
          split
          · rename_i hkey
            subst hkey
            rw [Option.bind_some, ih (parted_cons_iff.1 h)]
          · rfl

end TypeSchema.Annotations
