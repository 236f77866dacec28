import TypeSchema.Decimal.Binary64

/-!
# Shortest decimals

The decimal with the fewest digits among those that read back as a given number, and among these
the one nearest to it.

For a count of digits the decimals with their last digit at a fixed place form a grid.  If a point
of the grid lies in the interval of values that round to the number, so does one of the number's two
neighbours on the grid, hence only these are tried, for one digit, two digits and so on.
-/

namespace TypeSchema

structure Decimal where
  digits : Nat
  exponent : Int
  deriving DecidableEq

namespace Decimal

/-- Drops zeros at the end, at most as many as the count allows. -/
def normalize : Nat → Decimal → Decimal
  | 0, d => d
  | count + 1, d =>
    if d.digits % 10 = 0 ∧ d.digits ≠ 0 then normalize count ⟨d.digits / 10, d.exponent + 1⟩ else d

/-- A value, the interval that rounds to it, and the distance of grid points, in one unit. -/
structure Grid where
  value : Nat
  low : Nat
  high : Nat
  closed : Bool
  step : Nat

def Grid.hits (grid : Grid) (point : Nat) : Bool :=
  let p := point * grid.step
  if grid.closed then grid.low ≤ p && p ≤ grid.high else grid.low < p && p < grid.high

/-- Of two neighbours at the same distance, the even one or the upper one. -/
def Grid.nearest (grid : Grid) (halfUp : Bool) : Option Nat :=
  let below := grid.value / grid.step
  let rest := grid.value % grid.step
  match grid.hits below, grid.hits (below + 1) with
  | true, true =>
    if 2 * rest < grid.step then some below
    else if grid.step < 2 * rest then some (below + 1)
    else if !halfUp && below % 2 == 0 then some below
    else some (below + 1)
  | true, false => some below
  | false, true => some (below + 1)
  | false, false => none

/-- The grid of multiples of `10 ^ place` around a number. -/
def grid (x : Binary64) (place : Int) : Grid :=
  let factor := Nat.pow 2 x.scale * Nat.pow 10 (-place).toNat
  let gapBelow := if x.mantissa = Nat.pow 2 52 ∧ 0 < x.scale then 1 else 2
  { value := 4 * x.mantissa * factor
    low := (4 * x.mantissa - gapBelow) * factor
    high := (4 * x.mantissa + 2) * factor
    closed := x.mantissa % 2 == 0
    step := 4 * Binary64.unitsOfOne * Nat.pow 10 place.toNat }

/-- The least place above a fraction below one: `num / den < 10 ^ place`. -/
def placeBelowOne (den : Nat) : Nat → Nat → Int
  | 0, _ => 0
  | fuel + 1, num => if den ≤ num * 10 then 0 else placeBelowOne den fuel (num * 10) - 1

/-- The place of the leading digit, counted from one at the units. -/
def leadingPlace (x : Binary64) : Int :=
  if x.units < Binary64.unitsOfOne then placeBelowOne Binary64.unitsOfOne 330 x.units
  else (Nat.toDigits 10 (x.units / Binary64.unitsOfOne)).length

/-- Seventeen digits always suffice. -/
def shortest (halfUp : Bool) (x : Binary64) : Decimal :=
  let top := leadingPlace x
  let found := (List.range 17).findSome? fun count : Nat =>
    let place := top - ((count + 1 : Nat) : Int)
    ((grid x place).nearest halfUp).map fun digits => Decimal.mk digits place
  normalize 18 (found.getD ⟨x.mantissa, 0⟩)

end Decimal

end TypeSchema
