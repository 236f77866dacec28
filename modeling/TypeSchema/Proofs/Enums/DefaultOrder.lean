import TypeSchema.Proofs.Decimal.Whole
import TypeSchema.Proofs.Enums.Sorted

/-!
# The default order of arrays

An array that is sorted without a comparator is ordered by the texts to which its values convert, in
sixteen-bit units, and values with the same text keep their order.  A list converts to the texts of
its items, joined by commas, and there null has no text.  But the text by which the values of enums
are sorted writes null as an item, too, so the two orders agree just where no list holds null.
-/

namespace TypeSchema

/-- The integer that the number is, if it is one of magnitude at most `2 ^ 53`. -/
def Number.integer? : Number → Option Int
  | .int i => if i.natAbs ≤ Nat.pow 2 53 then some i else none
  | .real x => if x.isWhole ∧ x.truncate.natAbs ≤ Nat.pow 2 53 then some x.truncate else none

/-- All numbers in the value are integers of magnitude at most `2 ^ 53`. -/
inductive Json.Integral : Json → Prop
  | null : Integral .null
  | bool (b : Bool) : Integral (.bool b)
  | num {n : Number} {i : Int} (h : n.integer? = some i) : Integral (.num n)
  | str (text : String) : Integral (.str text)
  | arr {items : List Json} (h : ∀ item ∈ items, Integral item) : Integral (.arr items)
  | obj {fields : List (String × Json)} (h : ∀ field ∈ fields, Integral field.2) :
      Integral (.obj fields)

attribute [simp] Json.Integral.null Json.Integral.bool Json.Integral.str

@[simp] theorem Json.integral_int {i : Int} : Integral (.int i) ↔ i.natAbs ≤ Nat.pow 2 53 := by
  refine ⟨fun h => ?_, fun h => .num (if_pos h)⟩
  cases h with
  | num h => exact (Option.ite_none_right_eq_some.1 h).1

@[simp] theorem Json.integral_arr {items : List Json} :
    Integral (.arr items) ↔ ∀ item ∈ items, Integral item :=
  ⟨fun h => by cases h with | arr h => exact h, .arr⟩

@[simp] theorem Json.integral_obj {fields : List (String × Json)} :
    Integral (.obj fields) ↔ ∀ field ∈ fields, Integral field.2 :=
  ⟨fun h => by cases h with | obj h => exact h, .obj⟩

def Json.isNull : Json → Bool
  | .null => true
  | _ => false

namespace EnumValues

/-! ## Conversion to texts -/

section Conversion

variable (other : Number → List Char)

mutual

/-- The text to which a value converts.  How a number is written that is no integer is left open. -/
def conversion : Json → List Char
  | .null => "null".toList
  | .bool b => (toString b).toList
  | .num n =>
    match n.integer? with
    | some i => (toString i).toList
    | none => other n
  | .str text => text.toList
  | .arr items => [','].intercalate (conversions items)
  | .obj _ => "[object Object]".toList
termination_by structural v => v

/-- The texts of the items of a list; null has none. -/
def conversions : List Json → List (List Char)
  | [] => []
  | item :: rest => (if item.isNull then [] else conversion item) :: conversions rest
termination_by structural items => items

end

def convertsBefore (a b : Json) : Bool := Text.unitsLE (conversion other a) (conversion other b)

/-- The default order: by the texts of the values, and stable. -/
def defaultSort (values : List Json) : List Json := values.mergeSort (convertsBefore other)

end Conversion

mutual

/-- How often null stands as an item of the list, or of a list in it. -/
def nullItems : Json → Nat
  | .arr items => nullsAmong items
  | _ => 0
termination_by structural v => v

def nullsAmong : List Json → Nat
  | [] => 0
  | item :: rest => (if item.isNull then 1 else nullItems item) + nullsAmong rest
termination_by structural items => items

end

variable {other : Number → List Char} {v item : Json} {items rest values : List Json}

-- To unfold by name is slow, since that computes the long texts, so these equations are stated.
theorem sortKey_arr (items : List Json) :
    sortKey (.arr items) = [','].intercalate (sortKeys items) := rfl

theorem conversion_arr (items : List Json) :
    conversion other (.arr items) = [','].intercalate (conversions other items) := rfl

theorem conversion_integer {n : Number} {i : Int} (h : n.integer? = some i) :
    conversion other (.num n) = (toString i).toList := by
  change (match n.integer? with | some i => (toString i).toList | none => other n) = _
  rw [h]

theorem nullItems_arr (items : List Json) : nullItems (.arr items) = nullsAmong items := rfl

/-! ## Numbers -/

theorem writeInt_eq (i : Int) : Digits.writeInt i = (toString i).toList := by
  cases i with
  | ofNat n => exact Nat.toList_repr.symm
  | negSucc n =>
      change _ = ("-" ++ Nat.repr (n + 1)).toList
      rw [String.toList_append, Nat.toList_repr]
      rfl

theorem sortKey_integer {n : Number} {i : Int} (h : n.integer? = some i) :
    sortKey (.num n) = Digits.writeInt i := by
  cases n with
  | int j =>
      rw [Number.integer?, Option.ite_none_right_eq_some] at h
      exact congrArg Digits.writeInt (Option.some.inj h.2)
  | real x =>
      rw [Number.integer?, Option.ite_none_right_eq_some] at h
      obtain ⟨⟨hwhole, hsmall⟩, hi⟩ := h
      exact (numberLayout_write hwhole hsmall).trans
        (congrArg Digits.writeInt (Option.some.inj hi))

theorem sortKey_num {n : Number} {i : Int} (h : n.integer? = some i) :
    sortKey (.num n) = conversion other (.num n) := by
  rw [sortKey_integer h, conversion_integer h, writeInt_eq]

/-! ## Nulls in lists -/

theorem length_intercalate (parts : List (List Char)) :
    ([','].intercalate parts).length = parts.flatten.length + (parts.length - 1) := by
  induction parts with
  | nil => rfl
  | cons part rest ih =>
      cases rest with
      | nil => simp
      | cons next rest =>
          simp only [List.intercalate_cons_cons, List.flatten_cons, List.length_append,
            List.length_cons, List.length_nil] at ih ⊢
          omega

theorem length_sortKeys (h : ∀ item ∈ items,
    (sortKey item).length = (conversion other item).length + 4 * nullItems item) :
    (sortKeys items).length = (conversions other items).length ∧
      (sortKeys items).flatten.length =
        (conversions other items).flatten.length + 4 * nullsAmong items := by
  induction items with
  | nil => exact ⟨rfl, rfl⟩
  | cons item rest ih =>
      obtain ⟨hitem, hrest⟩ := List.forall_mem_cons.1 h
      obtain ⟨hlength, htotal⟩ := ih hrest
      rw [sortKeys, conversions, nullsAmong]
      refine ⟨congrArg (· + 1) hlength, ?_⟩
      rw [List.flatten_cons, List.flatten_cons, List.length_append, List.length_append, htotal]
      cases item with
      | null =>
          change 4 + _ = 0 + _ + 4 * (1 + _)
          omega
      | _ =>
          rw [hitem, Nat.mul_add, Nat.add_add_add_comm]
          rfl

/-- The text to sort by is the converted one and four characters for each null. -/
theorem length_sortKey (h : v.Integral) :
    (sortKey v).length = (conversion other v).length + 4 * nullItems v := by
  induction h with
  | null | str text | obj => rfl
  | bool b => cases b <;> rfl
  | num h => exact congrArg List.length (sortKey_num h)
  | arr _ ih =>
      obtain ⟨hlength, htotal⟩ := length_sortKeys ih
      rw [sortKey_arr, conversion_arr, nullItems_arr, length_intercalate, length_intercalate,
        hlength, htotal]
      omega

theorem sortKeys_eq (h : ∀ item ∈ items, nullItems item = 0 → sortKey item = conversion other item)
    (hnull : nullsAmong items = 0) : sortKeys items = conversions other items := by
  induction items with
  | nil => rfl
  | cons item rest ih =>
      obtain ⟨hitem, hrest⟩ := List.forall_mem_cons.1 h
      rw [nullsAmong, Nat.add_eq_zero_iff] at hnull
      rw [sortKeys, conversions, ih hrest hnull.2]
      cases item with
      | null => exact absurd hnull.1 Nat.one_ne_zero
      | _ => rw [hitem hnull.1]; rfl

theorem sortKey_eq (h : v.Integral) (hnull : nullItems v = 0) :
    sortKey v = conversion other v := by
  induction h with
  | null | str text | obj => rfl
  | bool b => cases b <;> rfl
  | num h => exact sortKey_num h
  | arr _ ih => rw [sortKey_arr, conversion_arr, sortKeys_eq ih hnull]

theorem sortKey_eq_iff (h : v.Integral) : sortKey v = conversion other v ↔ nullItems v = 0 := by
  refine ⟨fun heq => ?_, sortKey_eq h⟩
  have hlength : (sortKey v).length = (conversion other v).length + 4 * nullItems v :=
    length_sortKey h
  rw [heq] at hlength
  omega

/-! ## Orders -/

theorem sort_eq_defaultSort (h : ∀ v ∈ values, sortKey v = conversion other v) :
    sort values = defaultSort other (Json.distinct values) := by
  have hkeys (v : Json) (hv : v ∈ Json.distinct values) : sortKey v = conversion other v :=
    h v (Json.mem_of_mem_distinct hv)
  have hsame : ∀ a ∈ Json.distinct values, ∀ b ∈ Json.distinct values,
      precedes a b = convertsBefore other a b := fun a ha b hb => by
    rw [precedes, convertsBefore, hkeys a ha, hkeys b hb]
  have hmap := @List.map_mergeSort Json Json precedes (convertsBefore other) id _ hsame
  rwa [List.map_id, List.map_id] at hmap

theorem mergeSort_pair {α : Type} (le : α → α → Bool) (a b : α) :
    [a, b].mergeSort le = if le a b then [a, b] else [b, a] := by
  simp [List.mergeSort, List.MergeSort.Internal.splitInTwo, List.merge]

theorem distinct_pair {a b : Json} (h : a.same b = false) : Json.distinct [a, b] = [a, b] :=
  Json.distinct_eq_self (List.pairwise_pair.2 h)

theorem sort_pair {a b : Json} (h : a.same b = false) :
    sort [a, b] = if precedes a b then [a, b] else [b, a] := by
  rw [sort, distinct_pair h, mergeSort_pair]

theorem defaultSort_pair (a b : Json) :
    defaultSort other [a, b] = if convertsBefore other a b then [a, b] else [b, a] :=
  mergeSort_pair _ a b

/-- Two values that stand as they come by their texts stand so by default, if the sorts agree. -/
theorem convertsBefore_of_eq {a b : Json} (h : a.same b = false) (hne : a ≠ b)
    (hprecedes : precedes a b = true)
    (heq : sort [a, b] = defaultSort other (Json.distinct [a, b])) :
    convertsBefore other a b = true := by
  rw [sort_pair h, if_pos hprecedes, distinct_pair h, defaultSort_pair] at heq
  by_contra hbehind
  rw [if_neg hbehind] at heq
  exact hne (List.cons.inj heq).1

/-- Against the text by which it is sorted a list may stand on either side, so it converts to it. -/
theorem sortKey_eq_of_orders {text : String} (htext : text.toList = sortKey (.arr items))
    (h : sort [.arr items, .str text] = defaultSort other (Json.distinct [.arr items, .str text]))
    (h' : sort [.str text, .arr items] =
      defaultSort other (Json.distinct [.str text, .arr items])) :
    sortKey (.arr items) = conversion other (.arr items) := by
  have hkeys : sortKey (.str text) = sortKey (.arr items) := htext
  have hbefore := convertsBefore_of_eq rfl (by simp)
    (by rw [precedes, hkeys]; exact Text.unitsLE_refl _) h
  have hbehind := convertsBefore_of_eq rfl (by simp)
    (by rw [precedes, hkeys]; exact Text.unitsLE_refl _) h'
  rw [← htext]
  exact Text.unitsLE_antisymm hbehind hbefore

/-- Where all numbers are integers of at most `2 ^ 53`, the texts to sort by are the converted ones
just of the values without nulls in lists, and all lists of the values and of texts are sorted in
the default order just if there are no such nulls. -/
theorem sort_default_iff (h : ∀ v ∈ values, v.Integral) (other : Number → List Char) :
    (∀ v ∈ values, sortKey v = conversion other v ↔ nullItems v = 0) ∧
      ((∀ list, (∀ v ∈ list, v ∈ values ∨ ∃ text, v = .str text) →
          sort list = defaultSort other (Json.distinct list)) ↔
        ∀ v ∈ values, nullItems v = 0) := by
  refine ⟨fun v hv => sortKey_eq_iff (h v hv), fun horder v hv => ?_, fun hnull list hlist => ?_⟩
  · cases v with
    | arr items =>
        have htext : (String.ofList (sortKey (.arr items))).toList = sortKey (.arr items) :=
          String.toList_ofList
        refine (sortKey_eq_iff (h _ hv)).1 (sortKey_eq_of_orders htext (horder _ ?_) (horder _ ?_))
        · exact List.forall_mem_cons.2 ⟨.inl hv, List.forall_mem_singleton.2 (.inr ⟨_, rfl⟩)⟩
        · exact List.forall_mem_cons.2 ⟨.inr ⟨_, rfl⟩, List.forall_mem_singleton.2 (.inl hv)⟩
    | _ => rfl
  · refine sort_eq_defaultSort fun v hv => ?_
    rcases hlist v hv with hvalue | ⟨text, rfl⟩
    · exact sortKey_eq (h v hvalue) (hnull v hvalue)
    · rfl

/-- Three as a floating-point number. -/
def realThree : Number := .real ⟨false, 6755399441055744, 1023, by decide⟩

/-- Values of every kind, with null by itself and inside an object. -/
def plainValues : List Json :=
  [.arr [.int 10, .arr [.bool true, .str "a"], .obj [("key", .null)]], .null, .num realThree,
    .int (-9007199254740992)]

theorem sort_default_plain : (∀ v ∈ plainValues, v.Integral) ∧
    (∀ v ∈ plainValues, nullItems v = 0) ∧
    (∀ v ∈ plainValues, sortKey v = conversion (fun _ => []) v) ∧
    sort plainValues = defaultSort (fun _ => []) (Json.distinct plainValues) := by
  have hthree : realThree.integer? = some 3 := by decide +kernel
  have hintegral : ∀ v ∈ plainValues, v.Integral := by
    simp [plainValues, Json.Integral.num hthree]
  have hnull : ∀ v ∈ plainValues, nullItems v = 0 := by
    simp [plainValues, nullItems, nullsAmong, Json.isNull, Json.int]
  obtain ⟨hkeys, horders⟩ := sort_default_iff hintegral fun _ => []
  exact ⟨hintegral, hnull, fun v hv => (hkeys v hv).2 (hnull v hv),
    horders.2 hnull plainValues fun v hv => .inl hv⟩

/-- A list with null as its only item has the text `null` to be sorted by, and converts to none. -/
theorem sort_may_not_be_default : (∀ v ∈ [Json.int 0, .arr [.null]], v.Integral) ∧
    sortKey (.arr [.null]) = "null".toList ∧ conversion (fun _ => []) (.arr [.null]) = [] ∧
    sort [.int 0, .arr [.null]] = [.int 0, .arr [.null]] ∧
    defaultSort (fun _ => []) (Json.distinct [.int 0, .arr [.null]]) = [.arr [.null], .int 0] := by
  refine ⟨?_, rfl, rfl, ?_, ?_⟩
  · simp
  · rw [sort_pair rfl, if_pos (by decide +kernel)]
  · rw [distinct_pair rfl, defaultSort_pair, if_neg (by decide +kernel)]

end EnumValues

end TypeSchema
