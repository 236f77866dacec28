import TypeSchema.Decimal.Layout
import TypeSchema.Json.Basic

/-!
# Text of JSON values

The compact form has no blanks.  The indented form puts every item and field on a line of its own,
two blanks deeper than its container, and empty containers on one line.
-/

namespace TypeSchema.Json

/--
Whole numbers keep `.0`, which tells them from integers; magnitudes from 0.00001 to below 10 to the
16th are positional.
-/
def numberLayout : Layout where
  least := -5
  greatest := 15
  pointZero := true
  exactWhole := false
  signedZero := true
  halfUp := false

def printNumber : Number → List Char
  | .int i => Digits.writeInt i
  | .real x => numberLayout.write x

def escapedChar (c : Char) : List Char :=
  match c with
  | '"' => ['\\', '"']
  | '\\' => ['\\', '\\']
  | '\x08' => ['\\', 'b']
  | '\x0c' => ['\\', 'f']
  | '\n' => ['\\', 'n']
  | '\r' => ['\\', 'r']
  | '\t' => ['\\', 't']
  | c =>
    if c.toNat < 0x20 then
      ['\\', 'u', '0', '0', Nat.digitChar (c.toNat / 16), Nat.digitChar (c.toNat % 16)]
    else [c]

def printString (text : String) : List Char :=
  '"' :: text.toList.flatMap escapedChar ++ ['"']

def printBool (value : Bool) : List Char := if value then "true".toList else "false".toList

/-! ## Compact form -/

mutual

def compact : Json → List Char
  | .null => "null".toList
  | .bool value => printBool value
  | .num value => printNumber value
  | .str value => printString value
  | .arr items => '[' :: [','].intercalate (compactItems items) ++ [']']
  | .obj fields => '\x7b' :: [','].intercalate (compactFields fields) ++ ['\x7d']
termination_by structural value => value

def compactItems : List Json → List (List Char)
  | [] => []
  | item :: rest => compact item :: compactItems rest
termination_by structural items => items

def compactFields : List (String × Json) → List (List Char)
  | [] => []
  | (key, value) :: rest => (printString key ++ ':' :: compact value) :: compactFields rest
termination_by structural fields => fields

end

theorem compactItems_eq (items : List Json) : compactItems items = items.map compact := by
  induction items with
  | nil => rfl
  | cons item items ih => rw [compactItems, ih, List.map_cons]

theorem compactFields_eq (fields : List (String × Json)) :
    compactFields fields =
      fields.map fun field => printString field.1 ++ ':' :: compact field.2 := by
  induction fields with
  | nil => rfl
  | cons field fields ih => rw [compactFields, ih, List.map_cons]

def text (value : Json) : String := String.ofList value.compact

/-! ## Indented form -/

def newline (depth : Nat) : List Char := '\n' :: List.replicate (2 * depth) ' '

/-- The parts of a container between its brackets, each on a line. -/
def block (opening closing : Char) (depth : Nat) (parts : List (List Char)) : List Char :=
  if parts.isEmpty then [opening, closing]
  else
    opening :: newline (depth + 1) ++ (',' :: newline (depth + 1)).intercalate parts ++
      newline depth ++ [closing]

mutual

def indented : Json → Nat → List Char
  | .null, _ => "null".toList
  | .bool value, _ => printBool value
  | .num value, _ => printNumber value
  | .str value, _ => printString value
  | .arr items, depth => block '[' ']' depth (indentedItems items (depth + 1))
  | .obj fields, depth => block '\x7b' '\x7d' depth (indentedFields fields (depth + 1))
termination_by structural value => value

def indentedItems : List Json → Nat → List (List Char)
  | [], _ => []
  | item :: rest, depth => indented item depth :: indentedItems rest depth
termination_by structural items => items

def indentedFields : List (String × Json) → Nat → List (List Char)
  | [], _ => []
  | (key, value) :: rest, depth =>
    (printString key ++ ':' :: ' ' :: indented value depth) :: indentedFields rest depth
termination_by structural fields => fields

end

theorem indentedItems_eq (items : List Json) (depth : Nat) :
    indentedItems items depth = items.map (indented · depth) := by
  induction items with
  | nil => rfl
  | cons item items ih => rw [indentedItems, ih, List.map_cons]

theorem indentedFields_eq (fields : List (String × Json)) (depth : Nat) :
    indentedFields fields depth =
      fields.map fun field => printString field.1 ++ ':' :: ' ' :: indented field.2 depth := by
  induction fields with
  | nil => rfl
  | cons field fields ih => rw [indentedFields, ih, List.map_cons]

/-! ## Sorted keys -/

mutual

/-- Orders the fields of every object by their keys, compared code by code. -/
def sortKeys : Json → Json
  | .arr items => .arr (sortKeysItems items)
  | .obj fields => .obj ((sortKeysFields fields).mergeSort fun a b => decide (a.1 ≤ b.1))
  | value => value
termination_by structural value => value

def sortKeysItems : List Json → List Json
  | [] => []
  | item :: rest => sortKeys item :: sortKeysItems rest
termination_by structural items => items

def sortKeysFields : List (String × Json) → List (String × Json)
  | [] => []
  | (key, value) :: rest => (key, sortKeys value) :: sortKeysFields rest
termination_by structural fields => fields

end

/-- The form in which documents are written: sorted, indented, ended by a line break. -/
def documentText (value : Json) : String :=
  String.ofList (indented (sortKeys value) 0 ++ ['\n'])

end TypeSchema.Json
