import TypeSchema.Decimal.Digits
import TypeSchema.Decimal.Shortest

/-!
# Layouts of numbers

A layout says how a number is written: for which magnitudes positionally, how whole numbers end, and
what becomes of the sign of zero.  Powers of ten are always written with their sign.
-/

namespace TypeSchema

structure Layout where
  /-- Least and greatest power of ten of the leading digit that are written positionally. -/
  least : Int
  greatest : Int
  /-- Whole numbers end in `.0`. -/
  pointZero : Bool
  /-- Positional whole numbers show all their digits, not only those needed to read them back. -/
  exactWhole : Bool
  /-- Zero keeps its sign. -/
  signedZero : Bool
  /-- Of two shortest decimals at the same distance the upper one is taken, not the even one. -/
  halfUp : Bool

namespace Layout

def zeros (n : Nat) : List Char := List.replicate n '0'

def positional (layout : Layout) (digits : List Char) (exponent : Int) : List Char :=
  let point := exponent + digits.length
  if 0 ≤ exponent then
    digits ++ zeros exponent.toNat ++ (if layout.pointZero then ['.', '0'] else [])
  else if 0 < point then digits.take point.toNat ++ '.' :: digits.drop point.toNat
  else '0' :: '.' :: zeros (-point).toNat ++ digits

def scientific (digits : List Char) (power : Int) : List Char :=
  let fraction := digits.drop 1
  digits.take 1 ++ (if fraction.isEmpty then [] else '.' :: fraction) ++
    'e' :: (if power < 0 then '-' else '+') :: Digits.write power.natAbs

def magnitude (layout : Layout) (x : Binary64) : List Char :=
  let decimal := Decimal.shortest layout.halfUp x
  let digits := Digits.write decimal.digits
  let power := decimal.exponent + digits.length - 1
  if layout.least ≤ power ∧ power ≤ layout.greatest then
    if layout.exactWhole ∧ x.isWhole then
      layout.positional (Digits.write (x.units / Binary64.unitsOfOne)) 0
    else layout.positional digits decimal.exponent
  else scientific digits power

def write (layout : Layout) (x : Binary64) : List Char :=
  if x.isZero then
    (if x.negative ∧ layout.signedZero then ['-'] else []) ++ layout.positional ['0'] 0
  else (if x.negative then ['-'] else []) ++ layout.magnitude x

end Layout

end TypeSchema
