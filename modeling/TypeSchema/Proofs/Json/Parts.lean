import TypeSchema.Json.Basic

/-!
# Parts at any depth

The numbers in a value, tests on all its objects, and how deep its containers nest.  A value is one
that the program can hold (`Json.IsHeld`) if its integers have 64 bits, signed or not, and the keys
of each of its objects differ.
-/

namespace TypeSchema

def Number.isHeld : Number → Bool
  | .int i => -(Nat.pow 2 63 : Nat) ≤ i && i < (Nat.pow 2 64 : Nat)
  | .real _ => true

namespace Json

/-- What holds of a container if it holds of its parts holds of all values. -/
@[elab_as_elim]
theorem induction {motive : Json → Prop} (null : motive .null) (bool : ∀ b, motive (.bool b))
    (num : ∀ n, motive (.num n)) (str : ∀ s, motive (.str s))
    (arr : ∀ items, (∀ item ∈ items, motive item) → motive (.arr items))
    (obj : ∀ fields, (∀ field ∈ fields, motive field.2) → motive (.obj fields))
    (value : Json) : motive value :=
  @Json.rec motive (fun items => ∀ item ∈ items, motive item)
    (fun fields => ∀ field ∈ fields, motive field.2) (fun field => motive field.2)
    null bool num str arr obj
    (List.forall_mem_nil _) (fun _ _ hitem hrest => List.forall_mem_cons.2 ⟨hitem, hrest⟩)
    (List.forall_mem_nil _) (fun _ _ hfield hrest => List.forall_mem_cons.2 ⟨hfield, hrest⟩)
    (fun _ _ hvalue => hvalue) value

/-! ## Numbers -/

mutual

/-- All numbers in a value, from left to right. -/
def numbers : Json → List Number
  | .num value => [value]
  | .arr items => numbersOfItems items
  | .obj fields => numbersOfFields fields
  | _ => []
termination_by structural value => value

def numbersOfItems : List Json → List Number
  | [] => []
  | item :: rest => numbers item ++ numbersOfItems rest
termination_by structural items => items

def numbersOfFields : List (String × Json) → List Number
  | [] => []
  | (_, value) :: rest => numbers value ++ numbersOfFields rest
termination_by structural fields => fields

end

theorem numbers_arr (items : List Json) : numbers (.arr items) = items.flatMap numbers := by
  change numbersOfItems items = _
  induction items with
  | nil => rfl
  | cons item rest ih => rw [numbersOfItems, ih, List.flatMap_cons]

theorem numbers_obj (fields : List (String × Json)) :
    numbers (.obj fields) = fields.flatMap fun field => numbers field.2 := by
  change numbersOfFields fields = _
  induction fields with
  | nil => rfl
  | cons field rest ih => rw [numbersOfFields, ih, List.flatMap_cons]

theorem mem_numbers_arr {items : List Json} {item : Json} {n : Number} (hitem : item ∈ items)
    (h : n ∈ item.numbers) : n ∈ (arr items).numbers := by
  rw [numbers_arr]
  exact List.mem_flatMap.2 ⟨item, hitem, h⟩

theorem mem_numbers_obj {fields : List (String × Json)} {field : String × Json} {n : Number}
    (hfield : field ∈ fields) (h : n ∈ field.2.numbers) : n ∈ (obj fields).numbers := by
  rw [numbers_obj]
  exact List.mem_flatMap.2 ⟨field, hfield, h⟩

/-! ## Objects -/

mutual

/-- The fields of every object in a value pass a test. -/
def everyObject (test : List (String × Json) → Bool) : Json → Bool
  | .arr items => everyObjectOfItems test items
  | .obj fields => test fields && everyObjectOfFields test fields
  | _ => true
termination_by structural value => value

def everyObjectOfItems (test : List (String × Json) → Bool) : List Json → Bool
  | [] => true
  | item :: rest => everyObject test item && everyObjectOfItems test rest
termination_by structural items => items

def everyObjectOfFields (test : List (String × Json) → Bool) : List (String × Json) → Bool
  | [] => true
  | (_, value) :: rest => everyObject test value && everyObjectOfFields test rest
termination_by structural fields => fields

end

variable {test : List (String × Json) → Bool} {items : List Json} {fields : List (String × Json)}

theorem everyObject_arr :
    everyObject test (.arr items) = true ↔ ∀ item ∈ items, everyObject test item = true := by
  change everyObjectOfItems test items = true ↔ _
  induction items with
  | nil => simp [everyObjectOfItems]
  | cons item rest ih => simp [everyObjectOfItems, ih]

theorem everyObject_obj :
    everyObject test (.obj fields) = true ↔
      test fields = true ∧ ∀ field ∈ fields, everyObject test field.2 = true := by
  have hfields : everyObjectOfFields test fields = true ↔
      ∀ field ∈ fields, everyObject test field.2 = true := by
    induction fields with
    | nil => simp [everyObjectOfFields]
    | cons field rest ih => simp [everyObjectOfFields, ih]
  change (test fields && everyObjectOfFields test fields) = true ↔ _
  rw [Bool.and_eq_true, hfields]

/-! ## Values that are held -/

def keysDiffer (fields : List (String × Json)) : Bool := decide (Entries.keys fields).Nodup

/-- The numbers in a value are such as the program can hold. -/
def NumbersHeld (value : Json) : Prop := ∀ n ∈ value.numbers, n.isHeld = true

@[simp] theorem numbersHeld_null : NumbersHeld .null := nofun

@[simp] theorem numbersHeld_bool (b : Bool) : NumbersHeld (.bool b) := nofun

@[simp] theorem numbersHeld_str (s : String) : NumbersHeld (.str s) := nofun

@[simp] theorem numbersHeld_num {n : Number} : NumbersHeld (.num n) ↔ n.isHeld = true :=
  List.forall_mem_singleton

@[simp] theorem numbersHeld_arr : NumbersHeld (.arr items) ↔ ∀ item ∈ items, item.NumbersHeld := by
  rw [NumbersHeld, numbers_arr, List.forall_mem_flatMap]
  rfl

@[simp] theorem numbersHeld_obj :
    NumbersHeld (.obj fields) ↔ ∀ field ∈ fields, field.2.NumbersHeld := by
  rw [NumbersHeld, numbers_obj, List.forall_mem_flatMap]
  rfl

structure IsHeld (value : Json) : Prop where
  numbers : value.NumbersHeld
  keys : value.everyObject keysDiffer = true

/-! ## Depth -/

mutual

/-- How many containers stand inside each other. -/
def depth : Json → Nat
  | .arr items => depthOfItems items + 1
  | .obj fields => depthOfFields fields + 1
  | _ => 0
termination_by structural value => value

def depthOfItems : List Json → Nat
  | [] => 0
  | item :: rest => max (depth item) (depthOfItems rest)
termination_by structural items => items

def depthOfFields : List (String × Json) → Nat
  | [] => 0
  | (_, value) :: rest => max (depth value) (depthOfFields rest)
termination_by structural fields => fields

end

theorem depth_arr_le {room : Nat} :
    depth (.arr items) ≤ room + 1 ↔ ∀ item ∈ items, depth item ≤ room := by
  have hitems : depthOfItems items ≤ room ↔ ∀ item ∈ items, depth item ≤ room := by
    induction items with
    | nil => simp [depthOfItems]
    | cons item rest ih => simp [depthOfItems, Nat.max_le, ih]
  rw [← hitems]
  exact Nat.succ_le_succ_iff

theorem depth_obj_le {room : Nat} :
    depth (.obj fields) ≤ room + 1 ↔ ∀ field ∈ fields, depth field.2 ≤ room := by
  have hfields : depthOfFields fields ≤ room ↔ ∀ field ∈ fields, depth field.2 ≤ room := by
    induction fields with
    | nil => simp [depthOfFields]
    | cons field rest ih => simp [depthOfFields, Nat.max_le, ih]
  rw [← hfields]
  exact Nat.succ_le_succ_iff

/-! ## Places -/

/-- A value that the program can hold in a place with so much room. -/
structure FitsIn (room : Nat) (v : Json) : Prop extends IsHeld v where
  depth : v.depth ≤ room

theorem FitsIn.null {room : Nat} : FitsIn room .null := ⟨⟨nofun, rfl⟩, Nat.zero_le _⟩

theorem FitsIn.bool {room : Nat} (b : Bool) : FitsIn room (.bool b) :=
  ⟨⟨nofun, rfl⟩, Nat.zero_le _⟩

theorem FitsIn.num {room : Nat} {n : Number} (h : n.isHeld = true) : FitsIn room (.num n) :=
  ⟨⟨List.forall_mem_singleton.2 h, rfl⟩, Nat.zero_le _⟩

theorem FitsIn.str {room : Nat} (s : String) : FitsIn room (.str s) :=
  ⟨⟨nofun, rfl⟩, Nat.zero_le _⟩

theorem FitsIn.mono {room room' : Nat} {v : Json} (h : v.FitsIn room) (hle : room ≤ room') :
    v.FitsIn room' :=
  ⟨h.toIsHeld, Nat.le_trans h.depth hle⟩

theorem FitsIn.arr {room : Nat} (h : ∀ item ∈ items, item.FitsIn room) :
    (Json.arr items).FitsIn (room + 1) where
  numbers := numbersHeld_arr.2 fun item hitem => (h item hitem).numbers
  keys := everyObject_arr.2 fun item hitem => (h item hitem).keys
  depth := depth_arr_le.2 fun item hitem => (h item hitem).depth

theorem FitsIn.obj {room : Nat} (hkeys : (Entries.keys fields).Nodup)
    (h : ∀ field ∈ fields, field.2.FitsIn room) : (Json.obj fields).FitsIn (room + 1) where
  numbers := numbersHeld_obj.2 fun field hfield => (h field hfield).numbers
  keys := everyObject_obj.2 ⟨decide_eq_true hkeys, fun field hfield => (h field hfield).keys⟩
  depth := depth_obj_le.2 fun field hfield => (h field hfield).depth

end Json

end TypeSchema
