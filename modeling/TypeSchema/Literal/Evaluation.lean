import TypeSchema.Graph.Basic
import TypeSchema.Literal.Numerals
import TypeSchema.Literal.Strings

/-!
# Values of literals

Numbers, strings, `true`, `false`, `null`, `undefined` and lists of these, in parentheses or not,
with comments between the parts.  Nothing is executed.  The outcome `none` stands for `undefined`.
-/

namespace TypeSchema.Literal

def signedNumber (negative : Bool) (text : List Char) : Reading (Option Json × List Char) :=
  match text with
  | c :: _ =>
    if c.isDigit || c == '.' then do
      let (n, rest) ← number text
      return (some (.num (if negative then negate n else n)), rest)
    else unsupported
  | [] => unsupported

def word (text : List Char) : Reading (Option Json × List Char) :=
  let rest := text.dropWhile isNameChar
  let name := String.ofList (text.takeWhile isNameChar)
  if name = "true" then .ok (some (.bool true), rest)
  else if name = "false" then .ok (some (.bool false), rest)
  else if name = "null" then .ok (some .null, rest)
  else if name = "undefined" then .ok (none, rest)
  else unsupported

mutual

/-- The fuel counts two steps for each character. -/
def value : Nat → List Char → Reading (Option Json × List Char)
  | 0, _ => unsupported
  | fuel + 1, text =>
    match text with
    | [] => malformed [] .valueMissing
    | '(' :: rest => do
      let (v, rest) ← value fuel (skipTrivia rest)
      match skipTrivia rest with
      | ')' :: rest => return (v, rest)
      | rest => malformed rest .parenthesisMissing
    | '[' :: rest => do
      let (values, rest) ← items fuel rest
      return (some (.arr values), rest)
    | '"' :: rest => do
      let (s, rest) ← string '"' rest
      return (some (.str s), rest)
    | '\'' :: rest => do
      let (s, rest) ← string '\'' rest
      return (some (.str s), rest)
    | '-' :: rest => signedNumber true (skipTrivia rest)
    | '+' :: rest => signedNumber false (skipTrivia rest)
    | c :: rest =>
      if c.isDigit || c == '.' then signedNumber false (c :: rest)
      else if isNameStart c then word (c :: rest)
      else unsupported

/-- The items of a list up to its closing bracket; an undefined item counts as null. -/
def items : Nat → List Char → Reading (List Json × List Char)
  | 0, _ => unsupported
  | fuel + 1, text =>
    match skipTrivia text with
    | ']' :: rest => .ok ([], rest)
    | ',' :: _ => unsupported
    | text => do
      let (v, rest) ← value fuel text
      match skipTrivia rest with
      | ',' :: rest =>
        let (values, rest) ← items fuel rest
        return (v.getD .null :: values, rest)
      | ']' :: rest => return ([v.getD .null], rest)
      | rest => malformed rest .commaMissing

end

def whole (text : List Char) : Reading (Option Json) := do
  let (v, rest) ← value (2 * text.length + 2) (skipTrivia text)
  if (skipTrivia rest).isEmpty then return v else .error .unsupported

def evaluateText (text : String) : Except Error (Option Json) :=
  (whole text.toList).mapError (Fault.inText text.toList)

/-- A template is kept as its source text; other expressions are not evaluated. -/
def evaluate (initializer : Initializer) : Except Error (Option Json) :=
  match initializer.kind with
  | .template => .ok (some (.str initializer.text))
  | .expression => .error (Fault.inText initializer.text.toList .unsupported)
  | .literal => evaluateText initializer.text

end TypeSchema.Literal
