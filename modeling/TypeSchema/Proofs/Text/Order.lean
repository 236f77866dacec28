import TypeSchema.Proofs.Text.Octets
import TypeSchema.Proofs.Text.Surrogates

/-!
# Two orders of text

The order by sixteen-bit units tells all texts apart.  It is not the order of the codes, which is
also that of the bytes: the characters from U+E000 to U+FFFF stand behind all greater ones.
-/

namespace TypeSchema.Text

variable {c d : Char} {s t : List Char}

theorem listLE_refl : ∀ a : List Nat, listLE a a = true
  | [] => rfl
  | _ :: as => by simp [listLE, listLE_refl as]

theorem listLE_antisymm : ∀ {a b : List Nat}, listLE a b = true → listLE b a = true → a = b
  | [], [], _, _ => rfl
  | [], _ :: _, _, h => by cases h
  | _ :: _, [], h, _ => by cases h
  | a :: as, b :: bs, h, h' => by
    simp only [listLE, Bool.or_eq_true, decide_eq_true_eq, Bool.and_eq_true, beq_iff_eq] at h h'
    obtain rfl : a = b := by omega
    have hrest : as = bs := listLE_antisymm (by simpa using h) (by simpa using h')
    rw [hrest]

theorem listLE_append_left (before a b : List Nat) :
    listLE (before ++ a) (before ++ b) = listLE a b := by
  induction before with
  | nil => rfl
  | cons unit rest ih => simp [listLE, ih]

/-! ## Units of different texts -/

/-- The first character of a text can be told from the units of the text. -/
theorem unitsOfChar_append_inj {a b : List Nat} (h : unitsOfChar c ++ a = unitsOfChar d ++ b) :
    c = d ∧ a = b := by
  have hc := not_isSurrogate_toNat c
  have hd := not_isSurrogate_toNat d
  rw [Bool.eq_false_iff, ne_eq, isSurrogate_iff] at hc hd
  have hcmax := toNat_lt c
  have hdmax := toNat_lt d
  rw [← Char.toNat_inj]
  unfold unitsOfChar at h
  -- A single unit is no surrogate, so one character cannot have one unit and the other two.
  split at h <;> split at h <;>
    simp only [List.cons_append, List.nil_append, List.cons.injEq] at h
  · exact h
  · omega
  · omega
  · exact ⟨by omega, h.2.2⟩

theorem units_inj (h : units s = units t) : s = t := by
  induction s generalizing t with
  | nil =>
      cases t with
      | nil => rfl
      | cons d t => exact absurd (List.append_eq_nil_iff.1 h.symm).1 (unitsOfChar_ne_nil d)
  | cons c s ih =>
      cases t with
      | nil => exact absurd (List.append_eq_nil_iff.1 h).1 (unitsOfChar_ne_nil c)
      | cons d t =>
          obtain ⟨rfl, hrest⟩ := unitsOfChar_append_inj h
          rw [ih hrest]

theorem unitsLE_refl (s : List Char) : unitsLE s s = true := listLE_refl _

theorem unitsLE_antisymm (h : unitsLE s t = true) (h' : unitsLE t s = true) : s = t :=
  units_inj (listLE_antisymm h h')

/-! ## Units against codes -/

theorem unitsLE_append_left (before s t : List Char) :
    unitsLE (before ++ s) (before ++ t) = unitsLE s t := by
  rw [unitsLE, units, units, List.flatMap_append, List.flatMap_append]
  exact listLE_append_left _ _ _

/-- Where the texts first differ, the one has a character from U+E000 to U+FFFF and the other a
greater one. -/
inductive OrdersDiffer : List Char → List Char → Prop
  | intro (before : List Char) {c d : Char} (s t : List Char) (hlow : 0xE000 ≤ c.toNat)
      (hhigh : c.toNat < 0x10000) (hgreater : 0x10000 ≤ d.toNat) :
      OrdersDiffer (before ++ c :: s) (before ++ d :: t)

theorem OrdersDiffer.octets_lt (h : OrdersDiffer s t) :
    octets (String.ofList s) < octets (String.ofList t) := by
  cases h with
  | intro before s t hlow hhigh hgreater =>
      rw [octets_ofList, octets_ofList, List.flatMap_append, List.flatMap_append]
      refine List.append_left_lt (utf8EncodeChar_append_lt ?_ _ _)
      exact UInt32.lt_iff_toNat_lt.2 (Nat.lt_of_lt_of_le hhigh hgreater)

theorem OrdersDiffer.unitsLE (h : OrdersDiffer s t) :
    unitsLE t s = true ∧ unitsLE s t = false := by
  cases h with
  | @intro before c d s t hlow hhigh hgreater =>
      obtain ⟨lead, trail, hunits, hlead, -⟩ := unitsOfCode_pair hgreater (toNat_lt d)
      have hc : units (c :: s) = c.toNat :: units s := by
        rw [units, List.flatMap_cons, unitsOfChar_eq, unitsOfCode_of_lt hhigh]
        rfl
      have hd : units (d :: t) = lead :: trail :: units t := by
        rw [units, List.flatMap_cons, unitsOfChar_eq, hunits]
        rfl
      have hlt : lead < c.toNat := Nat.lt_of_lt_of_le (isLead_iff.1 hlead).2 (by omega)
      rw [unitsLE_append_left, unitsLE_append_left, Text.unitsLE, Text.unitsLE, hc, hd]
      constructor
      · simp [listLE, hlt]
      · simp [listLE, Nat.le_of_lt hlt, Nat.ne_of_gt hlt]

end TypeSchema.Text
