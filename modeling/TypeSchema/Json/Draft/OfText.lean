import TypeSchema.Decimal.Digits
import TypeSchema.Json.Draft
import TypeSchema.Text.Bytes

/-!
# Drafts of texts

`Draft.ofText` reads a text as far as its first value goes and gives the draft together with what
follows, or with nothing where the text is lost.  `Json.parse` wants one whole value and only blanks
around it.
-/

namespace TypeSchema

namespace Draft

def isSpace (c : Char) : Bool := c == ' ' || c == '\n' || c == '\r' || c == '\t'

def skipSpace (text : List Char) : List Char := text.dropWhile isSpace

/-! ## Strings -/

inductive Piece where
  | char (c : Char)
  | unit (code : Nat)

/-- A string ends with its quotation mark or at a fault. -/
inductive Ending where
  | closed (rest : List Char)
  | cut (fault : Cut)

def simpleEscape : Char → Option Char
  | '"' => some '"'
  | '\\' => some '\\'
  | '/' => some '/'
  | 'b' => some '\x08'
  | 'f' => some '\x0c'
  | 'n' => some '\n'
  | 'r' => some '\r'
  | 't' => some '\t'
  | _ => none

def scanPieces : List Char → List Piece × Ending
  | [] => ([], .cut .ended)
  | '"' :: rest => ([], .closed rest)
  | '\\' :: 'u' :: a :: b :: c :: d :: rest =>
    match Digits.read? 16 [a, b, c, d] with
    | some code =>
      let (pieces, ending) := scanPieces rest
      (.unit code :: pieces, ending)
    | none => ([], .cut .malformed)
  | '\\' :: 'u' :: rest =>
    ([], .cut (if 4 ≤ Text.byteCount (rest.take 4) then .malformed else .ended))
  | ['\\'] => ([], .cut .ended)
  | '\\' :: escape :: rest =>
    match simpleEscape escape with
    | some c =>
      let (pieces, ending) := scanPieces rest
      (.char c :: pieces, ending)
    | none => ([], .cut .malformed)
  | c :: rest =>
    if c.toNat < 0x20 then ([], .cut .malformed)
    else
      let (pieces, ending) := scanPieces rest
      (.char c :: pieces, ending)

def isLead (code : Nat) : Bool := 0xD800 ≤ code && code < 0xDC00

def isTrail (code : Nat) : Bool := 0xDC00 ≤ code && code < 0xE000

/-- The text of pieces that end as given; surrogates must come in pairs. -/
def joinPieces (fault : Option Cut) : List Piece → Except Cut (List Char)
  | [] => match fault with
    | none => .ok []
    | some cut => .error cut
  | .char c :: rest => (joinPieces fault rest).map (c :: ·)
  | .unit lead :: .unit trail :: rest =>
    if isLead lead then
      if isTrail trail then
        let code := 0x10000 + (lead - 0xD800) * 0x400 + (trail - 0xDC00)
        (joinPieces fault rest).map (Char.ofNat code :: ·)
      else .error .malformed
    else if isTrail lead then .error .malformed
    else (joinPieces fault (.unit trail :: rest)).map (Char.ofNat lead :: ·)
  | .unit code :: rest =>
    if isLead code then .error (if rest.isEmpty then fault.getD .malformed else .malformed)
    else if isTrail code then .error .malformed
    else (joinPieces fault rest).map (Char.ofNat code :: ·)

def scanString (text : List Char) : Draft × Option (List Char) :=
  match scanPieces text with
  | (pieces, .closed rest) =>
    match joinPieces none pieces with
    | .ok value => (.str (String.ofList value), some rest)
    | .error fault => (.badText fault none, some rest)
  | (pieces, .cut cut) =>
    match joinPieces (some cut) pieces with
    | .ok _ => (.badText cut (some cut), none)
    | .error fault => (.badText fault (some cut), none)

/-! ## Numbers -/

structure Numeral where
  negative : Bool
  whole : List Char
  fraction : List Char
  exponentNegative : Bool
  exponent : List Char
  /-- Neither a point nor an exponent is written. -/
  plain : Bool

/-- `none` where the magnitude is beyond every finite number. -/
def Numeral.number (n : Numeral) : Option Number :=
  let digits := Digits.value 10 (n.whole ++ n.fraction)
  let power : Int := Digits.value 10 n.exponent
  let exponent := (if n.exponentNegative then -power else power) - n.fraction.length
  let fits := if n.negative then 0 < digits && digits ≤ Nat.pow 2 63
    else digits < Nat.pow 2 64
  if n.plain && fits then
    some (.int (if n.negative then -(digits : Int) else digits))
  else (Binary64.ofDecimal n.negative digits exponent).map .real

/-- A number is cut where a digit is missing; a reader that skips it does not tell the end apart. -/
def missingDigit (rest : List Char) : Draft × Option (List Char) :=
  (.badWord (if rest.isEmpty then .ended else .malformed) (some .malformed), none)

def scanExponent (n : Numeral) (text : List Char) : Draft × Option (List Char) :=
  let finish (n : Numeral) (rest : List Char) : Draft × Option (List Char) :=
    match n.number with
    | some number => (.num number, some rest)
    | none => (.badWord .malformed none, some rest)
  match text with
  | c :: rest =>
    if c = 'e' ∨ c = 'E' then
      let (negative, rest) := match rest with
        | '-' :: rest => (true, rest)
        | '+' :: rest => (false, rest)
        | rest => (false, rest)
      let digits := rest.takeWhile Char.isDigit
      let rest := rest.dropWhile Char.isDigit
      if digits.isEmpty then missingDigit rest
      else finish { n with exponentNegative := negative, exponent := digits, plain := false } rest
    else finish n text
  | [] => finish n []

def scanFraction (n : Numeral) (text : List Char) : Draft × Option (List Char) :=
  match text with
  | '.' :: rest =>
    let digits := rest.takeWhile Char.isDigit
    let rest := rest.dropWhile Char.isDigit
    if digits.isEmpty then missingDigit rest
    else scanExponent { n with fraction := digits, plain := false } rest
  | text => scanExponent n text

/-- No digit follows a zero that leads. -/
def scanMagnitude (negative : Bool) (text : List Char) : Draft × Option (List Char) :=
  let digits := text.takeWhile Char.isDigit
  let rest := text.dropWhile Char.isDigit
  match digits with
  | [] => missingDigit rest
  | '0' :: _ :: _ => (.badWord .malformed (some .malformed), none)
  | digits => scanFraction ⟨negative, digits, [], false, [], true⟩ rest

/-! ## Values -/

/-- The rest of a word of which one character stands already. -/
def scanWord (draft : Draft) : List Char → List Char → Draft × Option (List Char)
  | [], rest => (draft, some rest)
  | _, [] => (.badWord .ended (some .ended), none)
  | w :: word, c :: rest =>
    if w = c then scanWord draft word rest else (.badWord .malformed (some .malformed), none)

mutual

/-- The fuel counts two steps for each character. -/
def scanValue : Nat → List Char → Draft × Option (List Char)
  | 0, _ => (.unset, none)
  | fuel + 1, text =>
    match skipSpace text with
    | [] => (.unset, none)
    | 'n' :: rest => scanWord .null "ull".toList rest
    | 't' :: rest => scanWord (.bool true) "rue".toList rest
    | 'f' :: rest => scanWord (.bool false) "alse".toList rest
    | '"' :: rest => scanString rest
    | '[' :: rest =>
      match skipSpace rest with
      | [] => (.arr [] (some .ended), none)
      | ']' :: rest => (.arr [] none, some rest)
      | rest =>
        let (items, cut, rest) := scanItems fuel rest
        (.arr items cut, rest)
    | '\x7b' :: rest =>
      match skipSpace rest with
      | [] => (.obj [] (some .ended), none)
      | '\x7d' :: rest => (.obj [] none, some rest)
      | rest =>
        let (fields, cut, rest) := scanFields fuel rest
        (.obj fields cut, rest)
    | '-' :: rest => scanMagnitude true rest
    | c :: rest =>
      if c.isDigit then scanMagnitude false (c :: rest)
      else (.badWord .malformed (some .malformed), none)

def scanItems : Nat → List Char → List Draft × Option Cut × Option (List Char)
  | 0, _ => ([], some .ended, none)
  | fuel + 1, text =>
    let (item, rest) := scanValue fuel text
    match rest.map skipSpace with
    | none => ([item], none, none)
    | some [] => ([item], some .ended, none)
    | some (']' :: rest) => ([item], none, some rest)
    | some (',' :: rest) =>
      let (items, cut, rest) := scanItems fuel rest
      (item :: items, cut, rest)
    | some _ => ([item], some .malformed, none)

def scanFields : Nat → List Char →
    List (Draft × Draft) × Option Cut × Option (List Char)
  | 0, _ => ([], some .ended, none)
  | fuel + 1, text =>
    let lost : Draft := .badWord .malformed (some .malformed)
    match text with
    | '"' :: rest =>
      match scanString rest with
      | (key, none) => ([(key, lost)], none, none)
      | (key, some rest) =>
        match skipSpace rest with
        | [] => ([(key, .unset)], none, none)
        | ':' :: rest =>
          let (value, rest) := scanValue fuel rest
          match rest.map skipSpace with
          | none => ([(key, value)], none, none)
          | some [] => ([(key, value)], some .ended, none)
          | some ('\x7d' :: rest) => ([(key, value)], none, some rest)
          | some (',' :: rest) =>
            let (fields, cut, rest) := scanFields fuel (skipSpace rest)
            ((key, value) :: fields, cut, rest)
          | some _ => ([(key, value)], some .malformed, none)
        | _ => ([(key, lost)], none, none)
    | text => ([((scanValue fuel text).1, lost)], none, none)

end

def scan (text : List Char) : Draft × Option (List Char) := scanValue (2 * text.length + 2) text

def ofText (text : String) : Draft := (scan text.toList).1

end Draft

def Json.parse (text : List Char) : Option Json :=
  match Draft.scan text with
  | (draft, some rest) =>
    if (Draft.skipSpace rest).isEmpty then (draft.toJson Draft.maxDepth).toOption else none
  | (_, none) => none

end TypeSchema
