/-!
# Order by sixteen-bit units

Text compared by the units of its sixteen-bit encoding.  A character beyond U+FFFF is written by two
units between U+D800 and U+DFFF, so it stands before U+E000 although its code is greater.
-/

namespace TypeSchema.Text

def unitsOfChar (c : Char) : List Nat :=
  if c.toNat < 0x10000 then [c.toNat]
  else [0xD800 + (c.toNat - 0x10000) / 0x400, 0xDC00 + (c.toNat - 0x10000) % 0x400]

def units (text : List Char) : List Nat := text.flatMap unitsOfChar

/-- The first unit that differs decides, and a text that ends goes before its continuations. -/
def listLE : List Nat → List Nat → Bool
  | [], _ => true
  | _ :: _, [] => false
  | a :: as, b :: bs => decide (a < b) || (a == b && listLE as bs)

def unitsLE (a b : List Char) : Bool := listLE (units a) (units b)

example : unitsLE ['😀'] ['\uE000'] = true ∧ '\uE000' < '😀' := by decide

theorem unitsOfChar_ne_nil (c : Char) : unitsOfChar c ≠ [] := by
  unfold unitsOfChar
  split <;> simp

theorem listLE_total : ∀ a b : List Nat, (listLE a b || listLE b a) = true
  | [], _ => by simp [listLE]
  | _ :: _, [] => by simp [listLE]
  | a :: as, b :: bs => by
    have ih := listLE_total as bs
    rcases Nat.lt_trichotomy a b with h | h | h
    · simp [listLE, h]
    · subst h
      simpa [listLE] using ih
    · simp [listLE, h]

theorem listLE_trans : ∀ {a b c : List Nat}, listLE a b = true → listLE b c = true →
    listLE a c = true
  | [], _, _, _, _ => rfl
  | _ :: _, [], _, h, _ => by simp [listLE] at h
  | _ :: _, _ :: _, [], _, h => by simp [listLE] at h
  | a :: as, b :: bs, c :: cs, h, h' => by
    simp only [listLE, Bool.or_eq_true, decide_eq_true_eq, Bool.and_eq_true, beq_iff_eq] at h h' ⊢
    rcases h with h | ⟨rfl, h⟩ <;> rcases h' with h' | ⟨rfl, h'⟩
    · exact .inl (Nat.lt_trans h h')
    · exact .inl h
    · exact .inl h'
    · exact .inr ⟨rfl, listLE_trans h h'⟩

theorem unitsLE_total (a b : List Char) : (unitsLE a b || unitsLE b a) = true :=
  listLE_total (units a) (units b)

theorem unitsLE_trans {a b c : List Char} (h : unitsLE a b = true) (h' : unitsLE b c = true) :
    unitsLE a c = true :=
  listLE_trans h h'

end TypeSchema.Text
