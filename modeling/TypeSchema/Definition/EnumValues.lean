import TypeSchema.Definition.Basic
import TypeSchema.Json.Printer
import TypeSchema.Text.Units

/-!
# Values of enums

The values of an `enum` are told apart as values and ordered by their text in sixteen-bit units, so
that 10 stands before 9.  Values with the same text keep the order in which they came.
-/

namespace TypeSchema

namespace EnumValues

/--
Numbers as texts to sort by: whole numbers without a fraction, positional from a millionth to below
10 to the 21st, and no sign of zero.
-/
def numberLayout : Layout where
  least := -6
  greatest := 20
  pointZero := false
  exactWhole := true
  signedZero := false
  halfUp := true

mutual

/-- The items of a list are joined by commas; objects do not show what they hold. -/
def sortKey : Json → List Char
  | .null => "null".toList
  | .bool value => Json.printBool value
  | .num (.int i) => Digits.writeInt i
  | .num (.real x) => numberLayout.write x
  | .str value => value.toList
  | .arr items => [','].intercalate (sortKeys items)
  | .obj _ => "[object Object]".toList
termination_by structural value => value

def sortKeys : List Json → List (List Char)
  | [] => []
  | item :: rest => sortKey item :: sortKeys rest
termination_by structural items => items

end

def precedes (a b : Json) : Bool := Text.unitsLE (sortKey a) (sortKey b)

def sort (values : List Json) : List Json := (Json.distinct values).mergeSort precedes

end EnumValues

end TypeSchema
