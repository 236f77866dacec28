import Mathlib.Data.List.Perm.Subperm
import TypeSchema.Proofs.Json.Parts

/-!
# Values that are the same

Two objects are the same if looking up any key gives the same in both.  This wants keys that differ
in each of the objects; values that are made from texts have such keys at any depth.
-/

namespace TypeSchema.Json

variable {v w : Json} {fields fields' : List (String × Json)}

/-- The keys of each object in the value differ. -/
abbrev KeysDiffer (v : Json) : Prop := v.everyObject keysDiffer = true

theorem keysDiffer_obj : KeysDiffer (.obj fields) ↔
    (Entries.keys fields).Nodup ∧ ∀ field ∈ fields, KeysDiffer field.2 := by
  rw [KeysDiffer, everyObject_obj, keysDiffer, decide_eq_true_eq]

theorem KeysDiffer.nodup (h : KeysDiffer (.obj fields)) : (Entries.keys fields).Nodup :=
  (keysDiffer_obj.1 h).1

theorem KeysDiffer.find? (h : KeysDiffer (.obj fields)) {key : String}
    (hfield : Entries.find? key fields = some v) : KeysDiffer v :=
  (keysDiffer_obj.1 h).2 _ (Entries.mem_of_find?_eq_some hfield)

theorem KeysDiffer.insert (h : KeysDiffer (.obj fields)) (key : String) (hv : KeysDiffer v) :
    KeysDiffer (.obj (Entries.insert key v fields)) := by
  refine keysDiffer_obj.2 ⟨Entries.nodup_keys_insert h.nodup key v, fun field hfield => ?_⟩
  rcases Entries.mem_of_mem_insert hfield with rfl | hold
  · exact hv
  · exact (keysDiffer_obj.1 h).2 field hold

theorem KeysDiffer.merge (h : KeysDiffer (.obj fields)) (h' : KeysDiffer (.obj fields')) :
    KeysDiffer (.obj (Entries.merge fields fields')) := by
  refine keysDiffer_obj.2 ⟨Entries.nodup_keys_merge h.nodup fields', fun field hfield => ?_⟩
  rcases Entries.mem_of_mem_merge hfield with hold | hnew
  · exact (keysDiffer_obj.1 h).2 field hold
  · exact (keysDiffer_obj.1 h').2 field hnew

/-! ## Equality of values -/

theorem sameItems_refl {items : List Json} (h : ∀ item ∈ items, item.same item = true) :
    sameItems items items = true := by
  induction items with
  | nil => rfl
  | cons item rest ih =>
      obtain ⟨hitem, hrest⟩ := List.forall_mem_cons.1 h
      rw [sameItems, hitem, ih hrest]
      rfl

theorem sameFields_iff : sameFields fields fields' = true ↔
    ∀ field ∈ fields, ∃ w, Entries.find? field.1 fields' = some w ∧ field.2.same w = true := by
  induction fields with
  | nil => simp [sameFields]
  | cons field rest ih =>
      rw [sameFields, Bool.and_eq_true, ih, List.forall_mem_cons]
      refine and_congr_left' ?_
      cases Entries.find? field.1 fields' <;> simp

theorem same_refl (h : KeysDiffer v) : v.same v = true := by
  induction v using Json.induction with
  | null | bool b | str s => simp [same]
  | num n => exact n.same_refl
  | arr items ih =>
      exact sameItems_refl fun item hitem => ih item hitem (everyObject_arr.1 h item hitem)
  | obj fields ih =>
      have hfields : sameFields fields fields = true := sameFields_iff.2 fun field hfield =>
        ⟨field.2, (Entries.find?_eq_some_iff_mem h.nodup).2 hfield,
          ih field hfield ((keysDiffer_obj.1 h).2 field hfield)⟩
      simp [same, hfields]

theorem eq_str_of_same {text : String} (h : v.same (.str text) = true) : v = .str text := by
  cases v with
  | str other => simpa [same] using h
  | _ => cases h

theorem eq_int_of_same {i : Int} (h : v.same (.int i) = true) : v = .int i := by
  cases v with
  | num n =>
      cases n with
      | int j => simpa [same, int, Number.same] using h
      | real x => cases h
  | _ => cases h

/-- The same value, or none on either side. -/
def Agree : Option Json → Option Json → Prop := Option.Rel fun v w => v.same w = true

instance : DecidableRel Agree
  | none, none => .isTrue .none
  | some v, some w => if h : v.same w = true then .isTrue (.some h)
      else .isFalse fun hagree => by cases hagree with | some hsame => exact h hsame
  | some _, none => .isFalse nofun
  | none, some _ => .isFalse nofun

@[simp] theorem agree_none_none : Agree none none := .none

@[simp] theorem agree_some_some : Agree (some v) (some w) ↔ v.same w = true :=
  ⟨fun h => by cases h with | some h => exact h, fun h => Option.Rel.some h⟩

@[simp] theorem not_agree_some_none : ¬ Agree (some v) none := nofun

@[simp] theorem not_agree_none_some : ¬ Agree none (some v) := nofun

theorem agree_some_left_iff {value : Option Json} :
    Agree (some v) value ↔ ∃ w, value = some w ∧ v.same w = true := by
  cases value <;> simp

theorem agree_some_right_iff {value : Option Json} :
    Agree value (some w) ↔ ∃ v, value = some v ∧ v.same w = true := by
  cases value <;> simp

theorem agree_refl {value : Option Json} (h : ∀ v, value = some v → KeysDiffer v) :
    Agree value value := by
  cases value with
  | none => exact .none
  | some v => exact .some (same_refl (h v rfl))

theorem same_obj_iff (h : (Entries.keys fields).Nodup) (h' : (Entries.keys fields').Nodup) :
    same (.obj fields) (.obj fields') = true ↔
      ∀ key, Agree (Entries.find? key fields) (Entries.find? key fields') := by
  simp only [same, Bool.and_eq_true, beq_iff_eq, sameFields_iff]
  constructor
  · rintro ⟨hlength, hfields⟩ key
    have hsubset : Entries.keys fields ⊆ Entries.keys fields' := by
      intro key hkey
      obtain ⟨v, hv⟩ := Entries.mem_keys_iff.1 hkey
      obtain ⟨w, hw, -⟩ := hfields _ (Entries.mem_of_find?_eq_some hv)
      exact Entries.mem_keys_iff.2 ⟨w, hw⟩
    have hperm : (Entries.keys fields).Perm (Entries.keys fields') :=
      (List.subperm_of_subset h hsubset).perm_of_length_le (by simp [Entries.keys, hlength])
    cases hv : Entries.find? key fields with
    | none =>
        have hnone : Entries.find? key fields' = none :=
          Entries.find?_eq_none_iff.2 fun hkey =>
            Entries.find?_eq_none_iff.1 hv (hperm.mem_iff.2 hkey)
        rw [hnone]
        exact .none
    | some v =>
        obtain ⟨w, hw, hsame⟩ := hfields _ (Entries.mem_of_find?_eq_some hv)
        rw [hw]
        exact .some hsame
  · intro hagree
    have hkeys (key : String) : key ∈ Entries.keys fields ↔ key ∈ Entries.keys fields' := by
      have hkey := hagree key
      rw [Entries.mem_keys_iff, Entries.mem_keys_iff]
      cases hv : Entries.find? key fields <;> cases hw : Entries.find? key fields' <;>
        simp_all
    refine ⟨?_, fun field hfield => ?_⟩
    · simpa [Entries.keys] using ((List.perm_ext_iff_of_nodup h h').2 hkeys).length_eq
    · have hv : Entries.find? field.1 fields = some field.2 :=
        (Entries.find?_eq_some_iff_mem h).2 hfield
      exact agree_some_left_iff.1 (hv ▸ hagree field.1)

end TypeSchema.Json
