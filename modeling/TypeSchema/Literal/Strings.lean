import TypeSchema.Decimal.Digits
import TypeSchema.Literal.Basic

/-!
# String literals

The text between two equal quotation marks, with escapes replaced by what they stand for.  Two
numbered escapes that make a surrogate pair stand for one character; a surrogate that stays alone
becomes U+FFFD.
-/

namespace TypeSchema.Literal

/-- The characters that make up exactly so many bytes, and the text after them. -/
def takeBytes : List Char → Nat → Option (List Char × List Char)
  | text, 0 => some ([], text)
  | [], _ + 1 => none
  | c :: rest, count + 1 =>
    if c.utf8Size ≤ count + 1 then
      (takeBytes rest (count + 1 - c.utf8Size)).map fun taken => (c :: taken.1, taken.2)
    else none

/-- A sign may stand before the digits and counts as one of them. -/
def hexDigits (count : Nat) (text : List Char) : Reading (Nat × List Char) :=
  match takeBytes text count with
  | none => malformed text .escapeTruncated
  | some (digits, rest) =>
    let unsigned := match digits with
      | '+' :: digits => digits
      | digits => digits
    match Digits.read? 16 unsigned with
    | some code => .ok (code, rest)
    | none => malformed text .hexDigitsBad

def charOfCode (code : Nat) : Char := if code.isValidChar then Char.ofNat code else '\uFFFD'

def isLeadSurrogate (code : Nat) : Bool := 0xD800 ≤ code && code < 0xDC00

def joinSurrogates (lead trail : Nat) : Nat :=
  0x10000 + (lead - 0xD800) * 0x400 + trail % 0x400

def bracedCode (text : List Char) : Reading (Nat × List Char) :=
  let digits := text.takeWhile (Digits.isDigit 16)
  match text.dropWhile (Digits.isDigit 16) with
  | '\x7d' :: rest =>
    match Digits.read? 16 digits with
    | some code => if code < Nat.pow 2 32 then .ok (code, rest) else malformed rest .codeBad
    | none => malformed rest .codeBad
  | rest => malformed rest .braceMissing

/-- A code of four digits, joined with a second one that follows a leading surrogate. -/
def unitCode (text : List Char) : Reading (Nat × List Char) := do
  let (lead, rest) ← hexDigits 4 text
  match rest with
  | '\\' :: 'u' :: after =>
    if isLeadSurrogate lead then
      let (trail, rest) ← hexDigits 4 after
      return (joinSurrogates lead trail, rest)
    else return (lead, rest)
  | rest => return (lead, rest)

def escape : List Char → Reading (List Char × List Char)
  | [] => malformed [] .escapeUnterminated
  | 'n' :: rest => .ok (['\n'], rest)
  | 't' :: rest => .ok (['\t'], rest)
  | 'r' :: rest => .ok (['\r'], rest)
  | 'b' :: rest => .ok (['\x08'], rest)
  | 'f' :: rest => .ok (['\x0c'], rest)
  | 'v' :: rest => .ok (['\x0b'], rest)
  | '0' :: rest => .ok (['\x00'], rest)
  | '\n' :: rest => .ok ([], rest)
  | 'x' :: rest => do
    let (code, rest) ← hexDigits 2 rest
    return ([charOfCode code], rest)
  | 'u' :: '\x7b' :: rest => do
    let (code, rest) ← bracedCode rest
    return ([charOfCode code], rest)
  | 'u' :: rest => do
    let (code, rest) ← unitCode rest
    return ([charOfCode code], rest)
  | c :: rest => .ok ([c], rest)

/-- The rest of a string literal; the fuel counts characters. -/
def stringBody (quote : Char) : Nat → List Char → Reading (List Char × List Char)
  | 0, text => malformed text .stringUnterminated
  | _ + 1, [] => malformed [] .stringUnterminated
  | fuel + 1, c :: rest =>
    if c = quote then .ok ([], rest)
    else if c = '\n' then malformed rest .stringBroken
    else if c = '\\' then do
      let (chars, rest) ← escape rest
      let (body, rest) ← stringBody quote fuel rest
      return (chars ++ body, rest)
    else do
      let (body, rest) ← stringBody quote fuel rest
      return (c :: body, rest)

def string (quote : Char) (text : List Char) : Reading (String × List Char) := do
  let (body, rest) ← stringBody quote (text.length + 1) text
  return (String.ofList body, rest)

end TypeSchema.Literal
