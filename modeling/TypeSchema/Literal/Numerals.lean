import TypeSchema.Decimal.Digits
import TypeSchema.Json.Basic
import TypeSchema.Literal.Basic

/-!
# Number literals

Decimal numbers with an optional fraction and exponent, and naturals in base two, eight and sixteen.
Underscores among the digits are dropped.  Whole numbers stay integers as long as 64 bits hold them.
-/

namespace TypeSchema.Literal

/-- No name may follow a number directly. -/
def endsNumber : List Char → Bool
  | c :: _ => !isNameChar c
  | [] => true

def dropUnderscores (digits : List Char) : List Char := digits.filter (· ≠ '_')

def radix? : List Char → Option (Nat × List Char)
  | '0' :: 'x' :: rest => some (16, rest)
  | '0' :: 'X' :: rest => some (16, rest)
  | '0' :: 'o' :: rest => some (8, rest)
  | '0' :: 'O' :: rest => some (8, rest)
  | '0' :: 'b' :: rest => some (2, rest)
  | '0' :: 'B' :: rest => some (2, rest)
  | _ => none

/-- Any hexadecimal digit belongs to the number, and makes it wrong if the base lacks it. -/
def radixNumber (base : Nat) (text : List Char) : Reading (Number × List Char) :=
  let isPart (c : Char) : Bool := Digits.isDigit 16 c || c == '_'
  let rest := text.dropWhile isPart
  match Digits.read? base (dropUnderscores (text.takeWhile isPart)) with
  | some n =>
    if Nat.pow 2 64 ≤ n then malformed rest .integerBad
    else if endsNumber rest then .ok (.int n, rest)
    else unsupported
  | none => malformed rest .integerBad

def isDigitPart (c : Char) : Bool := c.isDigit || c == '_'

def fractionPart (text : List Char) : Option (List Char) × List Char :=
  match text with
  | '.' :: rest => (some (dropUnderscores (rest.takeWhile isDigitPart)), rest.dropWhile isDigitPart)
  | text => (none, text)

structure Exponent where
  mark : Char
  sign : List Char
  digits : List Char

namespace Exponent

def text (e : Exponent) : List Char := e.mark :: e.sign ++ e.digits

def power (e : Exponent) : Int :=
  let magnitude : Int := Digits.value 10 e.digits
  if e.sign = ['-'] then -magnitude else magnitude

end Exponent

def exponentPart (text : List Char) : Option Exponent × List Char :=
  match text with
  | c :: rest =>
    if c = 'e' ∨ c = 'E' then
      let (sign, rest) := match rest with
        | '+' :: rest => (['+'], rest)
        | '-' :: rest => (['-'], rest)
        | rest => ([], rest)
      (some ⟨c, sign, rest.takeWhile Char.isDigit⟩, rest.dropWhile Char.isDigit)
    else (none, text)
  | [] => (none, [])

/-- The value of a decimal number; digits must stand in the mantissa and in a written exponent. -/
def decimalValue (whole : List Char) (fraction : Option (List Char)) (exponent : Option Exponent)
    (rest : List Char) : Reading Number :=
  let digits := whole ++ fraction.getD []
  let written := whole ++ (fraction.map ('.' :: ·)).getD [] ++ (exponent.map (·.text)).getD []
  let wrong := digits.isEmpty || exponent.any (·.digits.isEmpty)
  if fraction.isNone && exponent.isNone && Digits.value 10 whole < Nat.pow 2 63 && !wrong then
    .ok (.int (Digits.value 10 whole))
  else if wrong then .error (.malformed rest (.numberBad (String.ofList written)))
  else
    let power := (exponent.map (·.power)).getD 0 - (fraction.getD []).length
    match Binary64.ofDecimal false (Digits.value 10 digits) power with
    | some x => .ok (.real x)
    | none => .error .unsupported

def decimalNumber (text : List Char) : Reading (Number × List Char) :=
  let whole := dropUnderscores (text.takeWhile isDigitPart)
  let (fraction, rest) := fractionPart (text.dropWhile isDigitPart)
  let (exponent, rest) := exponentPart rest
  if endsNumber rest then
    (decimalValue whole fraction exponent rest).map fun n => (n, rest)
  else unsupported

def number (text : List Char) : Reading (Number × List Char) :=
  match radix? text with
  | some (base, rest) => radixNumber base rest
  | none => decimalNumber text

/-- Integers beyond 63 bits become reals under a minus. -/
def negate : Number → Number
  | .int i => if i < Nat.pow 2 63 then .int (-i) else
    match Binary64.ofInt i with
    | some x => .real x.neg
    | none => .int (-i)
  | .real x => .real x.neg

end TypeSchema.Literal
