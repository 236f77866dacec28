import TypeSchema.Proofs.Json.Sameness

/-!
# Equality by value

A schema compares numbers by their values, so that `1` and `1.0` are equal, and objects by what they
have under each key.  What is the same for the program is equal to the same values.
-/

namespace TypeSchema

namespace Number

/-- The value in units of `2 ^ (-1074)`. -/
def units : Number → Int
  | .int i => i * Binary64.unitsOfOne
  | .real x => if x.negative then -x.units else x.units

theorem units_eq_of_same {m n : Number} (h : m.same n = true) : m.units = n.units := by
  cases m with
  | int i =>
      cases n with
      | int j => rw [eq_of_beq h]
      | real y => cases h
  | real x =>
      cases n with
      | int j => cases h
      | real y =>
          have hzero {x : Binary64} (hx : x.isZero = true) : x.units = 0 := by
            rw [Binary64.units, eq_of_beq hx, Nat.zero_mul]
          simp only [same, Binary64.same, Bool.or_eq_true, decide_eq_true_eq, Bool.and_eq_true] at h
          rcases h with rfl | ⟨hx, hy⟩
          · rfl
          · simp [units, hzero hx, hzero hy]

end Number

namespace Json

mutual

def equal : Json → Json → Bool
  | .null, .null => true
  | .bool a, .bool b => a == b
  | .num a, .num b => a.units == b.units
  | .str a, .str b => a == b
  | .arr a, .arr b => equalItems a b
  | .obj a, .obj b => a.length == b.length && equalFields a b
  | _, _ => false
termination_by structural value => value

def equalItems : List Json → List Json → Bool
  | [], [] => true
  | a :: as, b :: bs => equal a b && equalItems as bs
  | _, _ => false
termination_by structural items => items

/-- Every field of the first list stands in the second with an equal value. -/
def equalFields : List (String × Json) → List (String × Json) → Bool
  | [], _ => true
  | (key, a) :: rest, fields =>
    (match Entries.find? key fields with
      | some b => equal a b
      | none => false) && equalFields rest fields
termination_by structural fields => fields

end

variable {a b : Json} {fields fields' : List (String × Json)}

theorem equalFields_iff : equalFields fields fields' = true ↔
    ∀ field ∈ fields, ∃ w, Entries.find? field.1 fields' = some w ∧ field.2.equal w = true := by
  induction fields with
  | nil => simp [equalFields]
  | cons field rest ih =>
      rw [equalFields, Bool.and_eq_true, ih, List.forall_mem_cons]
      refine and_congr_left' ?_
      cases Entries.find? field.1 fields' <;> simp

theorem equalItems_congr {items items' : List Json}
    (h : ∀ item ∈ items, ∀ item' ∈ items', item.same item' = true → item.equal = item'.equal)
    (hsame : sameItems items items' = true) (values : List Json) :
    equalItems items values = equalItems items' values := by
  induction items generalizing items' values with
  | nil =>
      cases items' with
      | nil => rfl
      | cons _ _ => cases hsame
  | cons item rest ih =>
      cases items' with
      | nil => cases hsame
      | cons item' rest' =>
          obtain ⟨hitem, hrest⟩ := Bool.and_eq_true_iff.1 hsame
          cases values with
          | nil => rfl
          | cons value values =>
              have hhead := h item List.mem_cons_self item' List.mem_cons_self hitem
              have htail := ih (fun x hx y hy => h x (List.mem_cons_of_mem _ hx) y
                (List.mem_cons_of_mem _ hy)) hrest values
              rw [equalItems, equalItems, hhead, htail]

/-- A field with a value that is equal to the same values stands in for another. -/
theorem equalFields_of_fields {values : List (String × Json)}
    (h : ∀ field' ∈ fields', ∃ w, (field'.1, w) ∈ fields ∧ w.equal = field'.2.equal)
    (hequal : equalFields fields values = true) : equalFields fields' values = true := by
  refine equalFields_iff.2 fun field' hfield' => ?_
  obtain ⟨w, hw, heq⟩ := h field' hfield'
  obtain ⟨value, hvalue, hwvalue⟩ := equalFields_iff.1 hequal _ hw
  exact ⟨value, hvalue, heq ▸ hwvalue⟩

theorem equal_of_same (ha : KeysDiffer a) (hb : KeysDiffer b) (h : a.same b = true) :
    a.equal = b.equal := by
  induction a using Json.induction generalizing b with
  | null => cases b <;> first | rfl | cases h
  | bool x =>
      cases b with
      | bool y => rw [eq_of_beq h]
      | _ => cases h
  | str x =>
      cases b with
      | str y => rw [eq_of_beq h]
      | _ => cases h
  | num m =>
      cases b with
      | num n =>
          funext v
          cases v <;> simp only [equal, Number.units_eq_of_same h]
      | _ => cases h
  | arr items ih =>
      cases b with
      | arr items' =>
          have hitems (values : List Json) : equalItems items values = equalItems items' values :=
            equalItems_congr (fun item hitem item' hitem' => ih item hitem
              (everyObject_arr.1 ha item hitem) (everyObject_arr.1 hb item' hitem')) h values
          funext v
          cases v <;> simp only [equal, hitems]
      | _ => cases h
  | obj fields ih =>
      cases b with
      | obj fields' =>
          have hagree := (same_obj_iff ha.nodup hb.nodup).1 h
          have hlength : fields.length = fields'.length := eq_of_beq (Bool.and_eq_true_iff.1 h).1
          have hleft (field : String × Json) (hfield : field ∈ fields) :
              ∃ w, (field.1, w) ∈ fields' ∧ w.equal = field.2.equal := by
            have hfound := (Entries.find?_eq_some_iff_mem ha.nodup).2 hfield
            obtain ⟨w, hw, hsame⟩ := agree_some_left_iff.1 (hfound ▸ hagree field.1)
            exact ⟨w, Entries.mem_of_find?_eq_some hw,
              (ih field hfield (ha.find? hfound) (hb.find? hw) hsame).symm⟩
          have hright (field : String × Json) (hfield : field ∈ fields') :
              ∃ w, (field.1, w) ∈ fields ∧ w.equal = field.2.equal := by
            have hfound := (Entries.find?_eq_some_iff_mem hb.nodup).2 hfield
            obtain ⟨w, hw, hsame⟩ := agree_some_right_iff.1 (hfound ▸ hagree field.1)
            have hmem := Entries.mem_of_find?_eq_some hw
            exact ⟨w, hmem, ih _ hmem (ha.find? hw) (hb.find? hfound) hsame⟩
          have hfields (values : List (String × Json)) :
              equalFields fields values = equalFields fields' values :=
            Bool.eq_iff_iff.2 ⟨equalFields_of_fields hright, equalFields_of_fields hleft⟩
          funext v
          cases v <;> simp only [equal, hlength, hfields]
      | _ => cases h

end Json

end TypeSchema
