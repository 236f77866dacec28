import TypeSchema.Definition.EnumValues
import TypeSchema.Proofs.Decimal.Integers

/-!
# Whole numbers as texts

A floating-point number that is whole and not too great is written as the integer that it is.  The
shortest decimal of such a number has its leading digit where the integer has it or one place above,
so it is written positionally, and then with the digits of the integer.
-/

namespace TypeSchema

namespace Decimal

/-! ## The leading digit -/

variable {x : Binary64} {halfUp : Bool} {units unit digits a b : Nat} {place : Int}

/-- The place of the first digit, counted from one at the units. -/
def leading (d : Decimal) : Int := d.exponent + (Digits.write d.digits).length

theorem leading_normalize (count : Nat) (d : Decimal) :
    (normalize count d).leading = d.leading := by
  induction count generalizing d with
  | zero => rfl
  | succ count ih =>
      rw [normalize]
      split
      · rename_i hzero
        have hlength : (Digits.write d.digits).length =
            (Digits.write (d.digits / 10)).length + 1 := by
          rw [Digits.write, Nat.toDigits_of_base_le (by decide) (by omega), List.length_append]
          rfl
        rw [ih, leading, leading, hlength]
        dsimp only
        omega
      · rfl

theorem Grid.nearest_bounds {grid : Grid} (h : grid.nearest halfUp = some digits) :
    grid.value / grid.step ≤ digits ∧ digits ≤ grid.value / grid.step + 1 := by
  unfold Grid.nearest at h
  dsimp only at h
  split at h
  · split at h
    · cases h; omega
    · split at h
      · cases h; omega
      · split at h <;> cases h <;> omega
  · cases h; omega
  · cases h; omega
  · cases h

theorem grid_quotient (x : Binary64) (place : Int) :
    (grid x place).value / (grid x place).step =
      x.units * Nat.pow 10 (-place).toNat / (Binary64.unitsOfOne * Nat.pow 10 place.toNat) := by
  rw [grid, Binary64.units]
  dsimp only
  rw [Nat.mul_assoc 4, Nat.mul_assoc 4, Nat.mul_div_mul_left _ _ (by decide),
    Nat.mul_assoc x.mantissa]

theorem quotient_lt (hb : b ≤ 16) (hunit : 0 < unit)
    (h : units < Nat.pow 10 16 * unit) :
    units * Nat.pow 10 a / (unit * Nat.pow 10 b) < Nat.pow 10 (16 - b + a) := by
  have hpos : 0 < unit * Nat.pow 10 b := Nat.mul_pos hunit (Nat.pow_pos (by decide))
  have hsplit : Nat.pow 10 16 = Nat.pow 10 (16 - b) * Nat.pow 10 b :=
    (Nat.pow_sub_mul_pow 10 hb).symm
  have hsum : Nat.pow 10 (16 - b + a) = Nat.pow 10 (16 - b) * Nat.pow 10 a := Nat.pow_add _ _ _
  rw [Nat.div_lt_iff_lt_mul hpos]
  calc units * Nat.pow 10 a < Nat.pow 10 16 * unit * Nat.pow 10 a :=
        Nat.mul_lt_mul_of_pos_right h (Nat.pow_pos (by decide))
    _ = Nat.pow 10 (16 - b + a) * (unit * Nat.pow 10 b) := by
        rw [hsum, hsplit]
        ac_rfl

theorem pow_le_quotient (hunit : 0 < unit) (h : unit ≤ units) :
    Nat.pow 10 a ≤ units * Nat.pow 10 a / (unit * Nat.pow 10 0) := by
  change Nat.pow 10 a ≤ units * Nat.pow 10 a / (unit * 1)
  rw [Nat.mul_one, Nat.le_div_iff_mul_le hunit, Nat.mul_comm]
  exact Nat.mul_le_mul_right _ h

theorem length_write_le {n k : Nat} (hk : 0 < k) (h : n < Nat.pow 10 k) :
    (Digits.write n).length ≤ k :=
  (Nat.length_toDigits_le_iff (by decide) hk).2 h

theorem length_quotient_le (hunit : 0 < unit) (hhigh : units < Nat.pow 10 16 * unit) :
    (Digits.write (units / unit)).length ≤ 16 :=
  length_write_le (by decide) ((Nat.div_lt_iff_lt_mul hunit).2 hhigh)

/-- A quotient from one to below ten to the sixteenth has its first digit near its place. -/
theorem leading_of_quotient (hunit : 0 < unit) (hlow : unit ≤ units)
    (hhigh : units < Nat.pow 10 16 * unit) (hplace : place ≤ 15)
    (hdown : units * Nat.pow 10 (-place).toNat / (unit * Nat.pow 10 place.toNat) ≤ digits)
    (hup : digits ≤ units * Nat.pow 10 (-place).toNat / (unit * Nat.pow 10 place.toNat) + 1) :
    0 ≤ leading ⟨digits, place⟩ ∧ leading ⟨digits, place⟩ ≤ 17 := by
  generalize ha : (-place).toNat = a at hdown hup
  generalize hb : place.toNat = b at hdown hup
  have hquotient : units * Nat.pow 10 a / (unit * Nat.pow 10 b) < Nat.pow 10 (16 - b + a) :=
    quotient_lt (by omega) hunit hhigh
  have hdigits : digits < Nat.pow 10 (16 - b + a + 1) := by
    calc digits ≤ Nat.pow 10 (16 - b + a) := by omega
      _ < Nat.pow 10 (16 - b + a + 1) := Nat.pow_lt_pow_succ (by decide)
  have hlength := length_write_le (Nat.succ_pos _) hdigits
  unfold leading
  dsimp only
  refine ⟨?_, by omega⟩
  by_cases hneg : 0 ≤ place
  · omega
  · have hzero : b = 0 := by omega
    rw [hzero] at hdown
    have hpower := Nat.le_trans (pow_le_quotient hunit hlow) hdown
    have hlong : ¬ (Digits.write digits).length ≤ a := fun hshort =>
      Nat.not_lt.2 hpower ((Nat.length_toDigits_le_iff (by decide) (by omega)).1 hshort)
    omega

theorem leading_nearest (hlow : Binary64.unitsOfOne ≤ x.units)
    (hhigh : x.units < Nat.pow 10 16 * Binary64.unitsOfOne) (hplace : place ≤ 15)
    (h : (grid x place).nearest halfUp = some digits) :
    0 ≤ leading ⟨digits, place⟩ ∧ leading ⟨digits, place⟩ ≤ 17 := by
  obtain ⟨hdown, hup⟩ := Grid.nearest_bounds h
  rw [grid_quotient] at hdown hup
  exact leading_of_quotient Binary64.unitsOfOne_pos hlow hhigh hplace hdown hup

theorem leading_shortest (halfUp : Bool) (hlow : Binary64.unitsOfOne ≤ x.units)
    (hhigh : x.units < Nat.pow 10 16 * Binary64.unitsOfOne) :
    0 ≤ (shortest halfUp x).leading ∧ (shortest halfUp x).leading ≤ 17 := by
  have htop : leadingPlace x ≤ 16 := by
    rw [leadingPlace, if_neg (Nat.not_lt.2 hlow)]
    exact Int.ofNat_le.2 (length_quotient_le Binary64.unitsOfOne_pos hhigh)
  rw [shortest, leading_normalize]
  cases hfound : (List.range 17).findSome? _ with
  | none =>
      have hlength : (Digits.write x.mantissa).length ≤ 16 :=
        length_write_le (by decide) (Nat.lt_trans x.canonical.1 (by decide))
      simp only [Option.getD_none, leading]
      omega
  | some d =>
      obtain ⟨count, -, hcount⟩ := List.exists_of_findSome?_eq_some hfound
      obtain ⟨digits, hdigits, rfl⟩ := Option.map_eq_some_iff.1 hcount
      exact leading_nearest hlow hhigh (by omega) hdigits

end Decimal

/-! ## Whole numbers -/

theorem Digits.writeInt_neg {n : Nat} (h : 0 < n) : writeInt (-(n : Int)) = '-' :: write n := by
  obtain ⟨k, rfl⟩ := Nat.exists_eq_succ_of_ne_zero (Nat.ne_of_gt h)
  rfl

namespace Binary64

variable {x : Binary64}

theorem isZero_iff : x.isZero = true ↔ x.units = 0 := by
  rw [isZero, beq_iff_eq, units, Nat.mul_eq_zero]
  exact (or_iff_left (Nat.ne_of_gt (Nat.pow_pos (by decide)))).symm

theorem units_of_isWhole (h : x.isWhole = true) : x.units = x.truncate.natAbs * unitsOfOne := by
  have hwhole : x.units / unitsOfOne * unitsOfOne = x.units :=
    Nat.div_mul_cancel (Nat.dvd_of_mod_eq_zero (beq_iff_eq.1 h))
  rw [truncate]
  split
  · rw [Int.natAbs_neg, Int.natAbs_natCast, hwhole]
  · rw [Int.natAbs_natCast, hwhole]

theorem truncate_eq (x : Binary64) :
    x.truncate = if x.negative then -(x.truncate.natAbs : Int) else x.truncate.natAbs := by
  unfold truncate
  dsimp only
  split
  · rw [Int.natAbs_neg, Int.natAbs_natCast]
  · rw [Int.natAbs_natCast]

end Binary64

namespace EnumValues

theorem numberLayout_positional (digits : List Char) :
    numberLayout.positional digits 0 = digits := by
  rw [Layout.positional, if_pos (Int.le_refl 0)]
  exact (List.append_nil _).trans (List.append_nil _)

theorem numberLayout_magnitude {x : Binary64} (hwhole : x.isWhole = true)
    (hlow : Binary64.unitsOfOne ≤ x.units)
    (hhigh : x.units < Nat.pow 10 16 * Binary64.unitsOfOne) :
    numberLayout.magnitude x = Digits.write (x.units / Binary64.unitsOfOne) := by
  have hleading := Decimal.leading_shortest numberLayout.halfUp hlow hhigh
  have hplace : numberLayout.least ≤ (Decimal.shortest numberLayout.halfUp x).leading - 1 ∧
      (Decimal.shortest numberLayout.halfUp x).leading - 1 ≤ numberLayout.greatest := by
    change -6 ≤ _ ∧ _ ≤ (20 : Int)
    omega
  rw [Layout.magnitude]
  exact (if_pos hplace).trans ((if_pos ⟨rfl, hwhole⟩).trans (numberLayout_positional _))

/-- A whole number of at most 53 bits, or the one above these, is written as an integer. -/
theorem numberLayout_write {x : Binary64} (hwhole : x.isWhole = true)
    (h : x.truncate.natAbs ≤ Nat.pow 2 53) : numberLayout.write x = Digits.writeInt x.truncate := by
  have hunits := Binary64.units_of_isWhole hwhole
  rw [Binary64.truncate_eq x, Layout.write]
  generalize x.truncate.natAbs = n at *
  by_cases hzero : n = 0
  · subst hzero
    have hmantissa : x.isZero = true := Binary64.isZero_iff.2 (hunits.trans (Nat.zero_mul _))
    rw [if_pos hmantissa, if_neg fun hsigned => Bool.false_ne_true hsigned.2,
      numberLayout_positional]
    cases x.negative <;> rfl
  · have hpos := Nat.pos_of_ne_zero hzero
    have hnonzero : ¬ x.isZero = true := by
      rw [Binary64.isZero_iff, hunits]
      exact Nat.ne_of_gt (Nat.mul_pos hpos Binary64.unitsOfOne_pos)
    have hlow : Binary64.unitsOfOne ≤ x.units := by
      rw [hunits]
      exact Nat.le_mul_of_pos_left _ hpos
    have hhigh : x.units < Nat.pow 10 16 * Binary64.unitsOfOne := by
      rw [hunits]
      exact Nat.mul_lt_mul_of_pos_right (Nat.lt_of_le_of_lt h (by decide)) Binary64.unitsOfOne_pos
    rw [if_neg hnonzero, numberLayout_magnitude hwhole hlow hhigh, hunits,
      Nat.mul_div_cancel _ Binary64.unitsOfOne_pos]
    cases x.negative with
    | true => exact (Digits.writeInt_neg hpos).symm
    | false => rfl

end EnumValues

end TypeSchema
