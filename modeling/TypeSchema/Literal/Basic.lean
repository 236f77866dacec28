import TypeSchema.Text.Blank
import TypeSchema.Text.Bytes
import TypeSchema.Text.Letter

/-!
# Literals: errors, blanks and comments

Literals are read from the front of the remaining text.  An error keeps what remained when it was
found, from which its place in the whole text follows.
-/

namespace TypeSchema.Literal

inductive Complaint where
  | valueMissing
  | parenthesisMissing
  | commaMissing
  | stringUnterminated
  | stringBroken
  | escapeUnterminated
  | escapeTruncated
  | hexDigitsBad
  | braceMissing
  | codeBad
  | integerBad
  | numberBad (text : String)
  deriving DecidableEq

def Complaint.message : Complaint → String
  | .valueMissing => "expected a value"
  | .parenthesisMissing => "expected `)`"
  | .commaMissing => "expected `,` or `]`"
  | .stringUnterminated => "unterminated string"
  | .stringBroken => "newline in string"
  | .escapeUnterminated => "unterminated escape"
  | .escapeTruncated => "truncated escape"
  | .hexDigitsBad => "bad hex digits"
  | .braceMissing => "expected `\x7d`"
  | .codeBad => "bad \\u escape"
  | .integerBad => "bad integer literal"
  | .numberBad text => "bad number `" ++ text ++ "`"

inductive Fault where
  | unsupported
  | malformed (rest : List Char) (complaint : Complaint)

inductive Error where
  | unsupported (source : String)
  | malformed (offset : Nat) (complaint : Complaint)
  deriving DecidableEq

def Error.message : Error → String
  | .unsupported source => "unsupported initializer: " ++ source
  | .malformed offset complaint =>
    "malformed literal at offset " ++ toString offset ++ ": " ++ complaint.message

/-- The error of a whole text in which a fault was found; offsets count bytes. -/
def Fault.inText (text : List Char) : Fault → Error
  | .unsupported => .unsupported (String.ofList (Text.trim text))
  | .malformed rest complaint => .malformed (Text.byteCount text - Text.byteCount rest) complaint

/-- Readers of parts of a literal also give the text after the part. -/
abbrev Reading := Except Fault

theorem reading_bind_eq_ok {α β : Type} {reading : Reading α} {next : α → Reading β} {value : β} :
    (reading >>= next) = .ok value ↔ ∃ a, reading = .ok a ∧ next a = .ok value := by
  cases reading <;> simp [bind, Except.bind]

theorem reading_map_eq_ok {α β : Type} {reading : Reading α} {f : α → β} {value : β} :
    reading.map f = .ok value ↔ ∃ a, reading = .ok a ∧ f a = value := by
  cases reading <;> simp [Except.map]

def malformed {α : Type} (rest : List Char) (complaint : Complaint) : Reading (α × List Char) :=
  .error (.malformed rest complaint)

def unsupported {α : Type} : Reading (α × List Char) := .error .unsupported

/-! ## Blanks and comments -/

mutual

def skipTrivia : List Char → List Char
  | [] => []
  | '/' :: '/' :: rest => skipLine rest
  | '/' :: '*' :: rest => skipBlock rest
  | c :: rest => if Text.isBlank c then skipTrivia rest else c :: rest

/-- A line comment ends before the line break, which is a blank. -/
def skipLine : List Char → List Char
  | [] => []
  | c :: rest => if c = '\n' then skipTrivia rest else skipLine rest

/-- A block comment may also end with the text. -/
def skipBlock : List Char → List Char
  | [] => []
  | '*' :: '/' :: rest => skipTrivia rest
  | _ :: rest => skipBlock rest

end

/-! ## Names -/

def isNameStart (c : Char) : Bool := Text.isLetter c || c == '_' || c == '$'

def isNameChar (c : Char) : Bool := Text.isLetterOrNumeral c || c == '_' || c == '$'

end TypeSchema.Literal
