import Mathlib.Data.Nat.Init
import TypeSchema.Decimal.Binary64

/-!
# Integers as floating-point numbers

Every natural number of 64 bits is near to a finite number, the same one whether it is given as such
or by its decimal digits.  An integer of at most 53 bits is such a number itself.
-/

namespace TypeSchema

theorem divNearest_bounds (num den : Nat) :
    num / den ≤ divNearest num den ∧ divNearest num den ≤ num / den + 1 := by
  unfold divNearest
  dsimp only
  split
  · omega
  · split
    · omega
    · split <;> omega

namespace Binary64

variable {n : Nat}

/-- Without its last bits a number has 53 of them. -/
theorem div_pow_log2_bounds (h : 52 ≤ n.log2) :
    Nat.pow 2 52 ≤ n / Nat.pow 2 (n.log2 - 52) ∧
      n / Nat.pow 2 (n.log2 - 52) < Nat.pow 2 53 := by
  have hne : n ≠ 0 := by
    rintro rfl
    exact absurd h (by decide)
  have hpos : 0 < Nat.pow 2 (n.log2 - 52) := Nat.pow_pos (by decide)
  have hpow (k : Nat) : Nat.pow 2 k * Nat.pow 2 (n.log2 - 52) = 2 ^ (k + (n.log2 - 52)) :=
    (Nat.pow_add 2 k _).symm
  constructor
  · rw [Nat.le_div_iff_mul_le hpos, hpow, Nat.add_sub_cancel' h]
    exact Nat.log2_self_le hne
  · rw [Nat.div_lt_iff_lt_mul hpos, hpow, show 53 + (n.log2 - 52) = n.log2 + 1 by omega]
    exact Nat.lt_log2_self

theorem exists_ofRounded (negative : Bool) {rounded scale : Nat} (hlow : Nat.pow 2 52 ≤ rounded)
    (hhigh : rounded ≤ Nat.pow 2 53) (hscale : scale < 2045) :
    ∃ x, ofRounded negative rounded scale = some x := by
  rw [ofRounded]
  by_cases hcarry : rounded = Nat.pow 2 53
  · rw [if_pos hcarry]
    exact ⟨_, dif_pos ⟨by decide, hscale, .inr (Nat.le_refl _)⟩⟩
  · rw [if_neg hcarry]
    exact ⟨_, dif_pos ⟨Nat.lt_of_le_of_ne hhigh hcarry, Nat.le_of_lt hscale, .inr hlow⟩⟩

/-- The scale leaves 53 bits, and is not too great where the magnitude is not. -/
theorem exists_nearest (negative : Bool) {units : Nat} (hlow : 52 ≤ units.log2)
    (hhigh : units.log2 < 2097) :
    ∃ x, ofRounded negative (divNearest units (Nat.pow 2 (units.log2 - 52))) (units.log2 - 52) =
      some x := by
  obtain ⟨hleast, hgreatest⟩ := div_pow_log2_bounds hlow
  obtain ⟨hdown, hup⟩ := divNearest_bounds units (Nat.pow 2 (units.log2 - 52))
  exact exists_ofRounded _ (Nat.le_trans hleast hdown)
    (Nat.le_trans hup (Nat.succ_le_of_lt hgreatest)) (by omega)

theorem log2_mul_pow_bounds (hpos : 0 < n) {bits : Nat} (hbound : n < Nat.pow 2 bits) (k : Nat) :
    k ≤ (n * Nat.pow 2 k).log2 ∧ (n * Nat.pow 2 k).log2 < bits + k := by
  have hunit : 0 < Nat.pow 2 k := Nat.pow_pos (by decide)
  have hne : n * Nat.pow 2 k ≠ 0 := Nat.ne_of_gt (Nat.mul_pos hpos hunit)
  constructor
  · rw [Nat.le_log2 hne]
    exact Nat.le_mul_of_pos_left _ hpos
  · rw [Nat.log2_lt hne, Nat.pow_add]
    exact Nat.mul_lt_mul_of_pos_right hbound hunit

theorem exists_ofInt (hpos : 0 < n) (hbound : n < Nat.pow 2 64) : ∃ x, ofInt n = some x := by
  obtain ⟨hlow, hhigh⟩ := log2_mul_pow_bounds hpos hbound 1074
  rw [ofInt, Int.natAbs_natCast, ofRatio, Nat.div_one, Nat.one_mul]
  unfold unitsOfOne
  exact exists_nearest _ (Nat.le_trans (by decide) hlow) (Nat.lt_trans hhigh (by decide))

theorem ofDecimal_eq_ofInt (hpos : 0 < n) (hbound : n < Nat.pow 2 64) :
    ofDecimal false n 0 = ofInt n := by
  have hlength : (Nat.toDigits 10 n).length ≤ 20 :=
    (Nat.length_toDigits_le_iff (by decide) (by decide)).2 (Nat.lt_trans hbound (by decide))
  rw [ofDecimal, if_neg (by omega), if_neg (by omega), if_pos (by decide), ofInt,
    decide_eq_false (by omega), Int.natAbs_natCast, Int.toNat_zero]
  congr
  exact Nat.mul_one n

/-! ## Integers that are numbers -/

theorem unitsOfOne_pos : 0 < unitsOfOne := by
  decide +kernel

/-- At most 53 bits before zeros are kept as they are. -/
theorem exists_exact (negative : Bool) {unit : Nat} (k : Nat) (hunit : unit = Nat.pow 2 k)
    (hpos : 0 < n) (hbound : n < Nat.pow 2 53) (hlow : 52 ≤ k) (hhigh : k ≤ 2045) :
    ∃ x, ofRounded negative (divNearest (n * unit) (Nat.pow 2 ((n * unit).log2 - 52)))
        ((n * unit).log2 - 52) = some x ∧ x.negative = negative ∧ x.units = n * unit := by
  obtain ⟨hleast, hgreatest⟩ := log2_mul_pow_bounds hpos hbound k
  rw [← hunit] at hleast hgreatest
  have hmantissa := div_pow_log2_bounds (Nat.le_trans hlow hleast)
  generalize hscale : (n * unit).log2 - 52 = scale at hmantissa ⊢
  have hpower : 0 < Nat.pow 2 scale := Nat.pow_pos (by decide)
  have hsplit : n * unit = n * Nat.pow 2 (k - scale) * Nat.pow 2 scale := by
    rw [hunit, Nat.mul_assoc]
    exact congrArg (n * ·) (Nat.pow_sub_mul_pow 2 (by omega)).symm
  rw [hsplit, Nat.mul_div_cancel _ hpower] at hmantissa
  rw [hsplit, divNearest_mul_self hpower, ofRounded, if_neg (Nat.ne_of_lt hmantissa.2)]
  exact ⟨_, dif_pos ⟨hmantissa.2, by omega, .inr hmantissa.1⟩, rfl, rfl⟩

/-- An integer of at most 53 bits is a floating-point number. -/
theorem exists_ofInt_of_lt {i : Int} (h : i.natAbs < Nat.pow 2 53) :
    ∃ x, ofInt i = some x ∧ x.negative = decide (i < 0) ∧ x.units = i.natAbs * unitsOfOne := by
  rw [ofInt, ofRatio, Nat.div_one, Nat.one_mul]
  by_cases hzero : i.natAbs = 0
  · rw [hzero, Nat.zero_mul]
    exact ⟨⟨decide (i < 0), 0, 0, by decide⟩, rfl, rfl, rfl⟩
  · exact exists_exact _ 1074 (by decide +kernel) (Nat.pos_of_ne_zero hzero) h (by decide)
      (by decide)

theorem isWhole_of_units {x : Binary64} (h : x.units = n * unitsOfOne) : x.isWhole = true := by
  rw [isWhole, h, Nat.mul_mod_left]
  rfl

theorem truncate_of_units {x : Binary64} {i : Int} (hsign : x.negative = decide (i < 0))
    (h : x.units = i.natAbs * unitsOfOne) : x.truncate = i := by
  rw [truncate, h, Nat.mul_div_cancel _ unitsOfOne_pos, hsign]
  by_cases hneg : i < 0
  · rw [decide_eq_true hneg, if_pos rfl]
    omega
  · rw [decide_eq_false hneg, if_neg Bool.false_ne_true]
    omega

end Binary64

end TypeSchema
