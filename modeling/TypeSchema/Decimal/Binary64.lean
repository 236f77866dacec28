/-!
# Finite binary floating-point numbers

A finite number of 64 bits as exact data: a sign and `mantissa · 2 ^ scale` units of `2 ^ (-1074)`.
The mantissa has 53 bits unless the scale is zero, so a value other than zero has one form.  Zero
has two, told apart by the sign.
-/

namespace TypeSchema

/-- The integer nearest to a quotient; a half goes to the even neighbour. -/
def divNearest (num den : Nat) : Nat :=
  let q := num / den
  let r := num % den
  if 2 * r < den then q
  else if den < 2 * r then q + 1
  else if q % 2 = 0 then q
  else q + 1

theorem divNearest_mul_self {n den : Nat} (h : 0 < den) : divNearest (n * den) den = n := by
  simp [divNearest, Nat.mul_div_cancel n h, h]

structure Binary64 where
  negative : Bool
  mantissa : Nat
  scale : Nat
  canonical : mantissa < Nat.pow 2 53 ∧ scale ≤ 2045 ∧ (scale = 0 ∨ Nat.pow 2 52 ≤ mantissa)
  deriving DecidableEq

namespace Binary64

/-- How many units of `2 ^ (-1074)` make the whole number one. -/
def unitsOfOne : Nat := Nat.pow 2 1074

def units (x : Binary64) : Nat := x.mantissa * Nat.pow 2 x.scale

def isZero (x : Binary64) : Bool := x.mantissa == 0

def zero : Binary64 := ⟨false, 0, 0, by decide⟩

instance : Inhabited Binary64 := ⟨zero⟩

def neg (x : Binary64) : Binary64 := { x with negative := !x.negative }

/-- Equality of values: the two zeros are equal. -/
def same (x y : Binary64) : Bool := x = y || (x.isZero && y.isZero)

/-- A rounded magnitude: 54 bits arise from rounding up only, and are then a power of two. -/
def ofRounded (negative : Bool) (rounded scale : Nat) : Option Binary64 :=
  let (mantissa, scale) := if rounded = Nat.pow 2 53 then (Nat.pow 2 52, scale + 1)
    else (rounded, scale)
  if h : mantissa < Nat.pow 2 53 ∧ scale ≤ 2045 ∧ (scale = 0 ∨ Nat.pow 2 52 ≤ mantissa) then
    some ⟨negative, mantissa, scale, h⟩
  else none

/-- The number nearest to a quotient, ties to the even mantissa; `none` beyond the greatest. -/
def ofRatio (negative : Bool) (num den : Nat) : Option Binary64 :=
  let units := num * unitsOfOne
  let scale := (units / den).log2 - 52
  ofRounded negative (divNearest units (den * Nat.pow 2 scale)) scale

def ofInt (i : Int) : Option Binary64 := ofRatio (decide (i < 0)) i.natAbs 1

/--
The number nearest to `digits · 10 ^ exponent`.  Outside the powers that matter the outcome is known
without computing them.
-/
def ofDecimal (negative : Bool) (digits : Nat) (exponent : Int) : Option Binary64 :=
  let leading := exponent + (Nat.toDigits 10 digits).length
  if digits = 0 ∨ leading < -400 then some ⟨negative, 0, 0, by decide⟩
  else if 400 < leading then none
  else if 0 ≤ exponent then ofRatio negative (digits * Nat.pow 10 exponent.toNat) 1
  else ofRatio negative digits (Nat.pow 10 (-exponent).toNat)

def isWhole (x : Binary64) : Bool := x.units % unitsOfOne == 0

def truncate (x : Binary64) : Int :=
  let magnitude : Int := (x.units / unitsOfOne : Nat)
  if x.negative then -magnitude else magnitude

theorem neg_neg (x : Binary64) : x.neg.neg = x := by
  cases x; simp [neg]

theorem same_refl (x : Binary64) : x.same x = true := by simp [same]

theorem same_symm (x y : Binary64) : x.same y = y.same x := by
  have h : (x = y) = (y = x) := propext eq_comm
  simp only [same, h, Bool.and_comm]

theorem same_trans {x y z : Binary64} (h : x.same y = true) (h' : y.same z = true) :
    x.same z = true := by
  simp only [same, Bool.or_eq_true, decide_eq_true_eq, Bool.and_eq_true] at h h' ⊢
  rcases h with rfl | ⟨hx, hy⟩
  · exact h'
  · rcases h' with rfl | ⟨_, hz⟩
    · exact .inr ⟨hx, hy⟩
    · exact .inr ⟨hx, hz⟩

end Binary64

end TypeSchema
