import TypeSchema.Json.Basic

/-!
# Fields at any depth

Paths of keys into a value.  Tests on the fields of all objects inside a value, and the two that
matter for references: that no object has a field of a given name, and that no object has a text in
one.
-/

namespace TypeSchema

namespace Json

theorem field?_eq_some {name : String} {value part : Json} (h : value.field? name = some part) :
    ∃ fields, value = .obj fields ∧ Entries.find? name fields = some part := by
  cases value with
  | obj fields => exact ⟨fields, rfl, h⟩
  | _ => cases h

/-- What stands at the end of a path of keys. -/
def follow : List String → Json → Option Json
  | [], value => some value
  | key :: rest, value => (value.field? key).bind (follow rest)

mutual

/-- Every field of an object at any depth passes the test. -/
def everyField (test : String → Json → Bool) : Json → Bool
  | .arr items => everyFieldOfItems test items
  | .obj fields => everyFieldOfFields test fields
  | _ => true
termination_by structural value => value

def everyFieldOfItems (test : String → Json → Bool) : List Json → Bool
  | [] => true
  | item :: rest => everyField test item && everyFieldOfItems test rest
termination_by structural items => items

def everyFieldOfFields (test : String → Json → Bool) : List (String × Json) → Bool
  | [] => true
  | (key, value) :: rest => test key value && everyField test value && everyFieldOfFields test rest
termination_by structural fields => fields

end

theorem everyField_arr {test : String → Json → Bool} {items : List Json} :
    everyField test (.arr items) = true ↔ ∀ item ∈ items, everyField test item = true := by
  change everyFieldOfItems test items = true ↔ _
  induction items with
  | nil => simp [everyFieldOfItems]
  | cons item rest ih => simp [everyFieldOfItems, ih]

theorem everyField_obj {test : String → Json → Bool} {fields : List (String × Json)} :
    everyField test (.obj fields) = true ↔
      ∀ field ∈ fields, test field.1 field.2 = true ∧ everyField test field.2 = true := by
  change everyFieldOfFields test fields = true ↔ _
  induction fields with
  | nil => simp [everyFieldOfFields]
  | cons field rest ih => simp [everyFieldOfFields, ih]

/-- No object in the value has a field of this name. -/
def lacksKey (key : String) (value : Json) : Bool := value.everyField fun k _ => k != key

/-- No object in the value has a text in a field of this name. -/
def lacksText (key : String) (value : Json) : Bool :=
  value.everyField fun k v => k != key || v.str?.isNone

mutual

theorem everyField_mono {test test' : String → Json → Bool}
    (h : ∀ key value, test key value = true → test' key value = true) :
    ∀ value : Json, value.everyField test = true → value.everyField test' = true
  | .arr items => by
      intro hv
      exact everyFieldOfItems_mono h items hv
  | .obj fields => by
      intro hv
      exact everyFieldOfFields_mono h fields hv
  | .null | .bool _ | .num _ | .str _ => fun _ => rfl
termination_by structural value => value

theorem everyFieldOfItems_mono {test test' : String → Json → Bool}
    (h : ∀ key value, test key value = true → test' key value = true) :
    ∀ items : List Json, everyFieldOfItems test items = true →
      everyFieldOfItems test' items = true
  | [] => fun _ => rfl
  | item :: rest => by
      simp only [everyFieldOfItems, Bool.and_eq_true]
      rintro ⟨hitem, hrest⟩
      exact ⟨everyField_mono h item hitem, everyFieldOfItems_mono h rest hrest⟩
termination_by structural items => items

theorem everyFieldOfFields_mono {test test' : String → Json → Bool}
    (h : ∀ key value, test key value = true → test' key value = true) :
    ∀ fields : List (String × Json), everyFieldOfFields test fields = true →
      everyFieldOfFields test' fields = true
  | [] => fun _ => rfl
  | (key, value) :: rest => by
      simp only [everyFieldOfFields, Bool.and_eq_true]
      rintro ⟨⟨htest, hvalue⟩, hrest⟩
      exact ⟨⟨h key value htest, everyField_mono h value hvalue⟩,
        everyFieldOfFields_mono h rest hrest⟩
termination_by structural fields => fields

end

theorem lacksText_of_lacksKey {key : String} {value : Json} (h : value.lacksKey key = true) :
    value.lacksText key = true :=
  everyField_mono (fun k v hk => by simp [show (k != key) = true from hk]) value h

def LacksText (key : String) (field : String × Json) : Prop :=
  (field.1 = key → ∀ text, field.2 ≠ .str text) ∧ field.2.lacksText key = true

theorem lacksText_obj {key : String} {fields : List (String × Json)} :
    lacksText key (.obj fields) = true ↔ ∀ field ∈ fields, LacksText key field := by
  unfold lacksText
  rw [everyField_obj]
  refine forall₂_congr fun field _ => and_congr_left' ?_
  obtain ⟨k, v⟩ := field
  cases v <;> simp [str?]

theorem lacksText_insert {key name : String} {value : Json} {fields : Entries String Json}
    (hvalue : LacksText key (name, value)) (h : lacksText key (.obj fields) = true) :
    lacksText key (.obj (Entries.insert name value fields)) = true := by
  refine lacksText_obj.2 fun field hfield => ?_
  rcases Entries.mem_of_mem_insert hfield with rfl | hold
  · exact hvalue
  · exact lacksText_obj.1 h field hold

end Json

end TypeSchema
