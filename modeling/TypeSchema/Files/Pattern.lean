import TypeSchema.Files.Basic

/-!
# File patterns

Patterns for file names: a question mark stands for any character, an asterisk for any characters,
brackets for one of the characters between them, or with an exclamation mark for any other.  Neither
reaches beyond a slash.  Two asterisks between slashes stand for any number of directories.
-/

namespace TypeSchema.Pattern

structure CharRange where
  first : Char
  last : Char
  deriving DecidableEq

def CharRange.contains (range : CharRange) (c : Char) : Bool := range.first ≤ c && c ≤ range.last

inductive Token where
  | char (c : Char)
  | anyChar
  | anyChars
  | anyDirectories
  | oneOf (ranges : List CharRange)
  | noneOf (ranges : List CharRange)
  deriving DecidableEq

structure Error where
  position : Nat
  reason : String

def Error.message (error : Error) : String :=
  "Pattern syntax error near position " ++ toString error.position ++ ": " ++ error.reason

def wildcards : String := "wildcards are either regular `*` or recursive `**`"

def recursiveWildcards : String := "recursive wildcards must form a single path component"

def invalidRange : String := "invalid range pattern"

/-! ## Reading patterns -/

def charRanges : List Char → List CharRange
  | a :: '-' :: b :: rest => ⟨a, b⟩ :: charRanges rest
  | a :: rest => ⟨a, a⟩ :: charRanges rest
  | [] => []

/--
The characters up to the bracket that closes a class, of which the first belongs to the class even
if it is a bracket.
-/
def classBody : List Char → Option (List Char × List Char)
  | [] => none
  | first :: rest =>
    match rest.dropWhile (· ≠ ']') with
    | [] => none
    | _ :: after => some (first :: rest.takeWhile (· ≠ ']'), after)

def charClass : List Char → Option (Token × List Char)
  | '!' :: rest => (classBody rest).map fun body => (.noneOf (charRanges body.1), body.2)
  | rest => (classBody rest).map fun body => (.oneOf (charRanges body.1), body.2)

/-- Two asterisks must stand alone between slashes or the ends of the pattern. -/
def directories (position : Nat) (previous : Option Char) (rest : List Char) :
    Except Error (List Char) :=
  if previous.all (· == '/') then
    match rest with
    | [] => .ok []
    | '/' :: rest => .ok rest
    | _ => .error ⟨position + 2, recursiveWildcards⟩
  else .error ⟨position - 1, recursiveWildcards⟩

/-- The tokens of a pattern from a position on; the fuel counts characters. -/
def tokensFrom : Nat → Nat → Option Char → List Char → Except Error (List Token)
  | 0, _, _, _ => .ok []
  | _ + 1, _, _, [] => .ok []
  | fuel + 1, position, previous, c :: rest =>
    if c = '?' then do return .anyChar :: (← tokensFrom fuel (position + 1) (some c) rest)
    else if c = '*' then
      match rest with
      | '*' :: '*' :: _ => .error ⟨position + 2, wildcards⟩
      | '*' :: rest => do
        let after ← directories position previous rest
        let next := position + 2 + (rest.length - after.length)
        return .anyDirectories :: (← tokensFrom fuel next (some '/') after)
      | rest => do return .anyChars :: (← tokensFrom fuel (position + 1) (some c) rest)
    else if c = '[' then
      match charClass rest with
      | some (token, after) => do
        let next := position + 1 + (rest.length - after.length)
        return token :: (← tokensFrom fuel next (some ']') after)
      | none => .error ⟨position, invalidRange⟩
    else do return .char c :: (← tokensFrom fuel (position + 1) (some c) rest)

def tokens (pattern : String) : Except Error (List Token) :=
  tokensFrom (pattern.length + 1) 0 none pattern.toList

/-! ## Matching names -/

def suffixes : List Char → List (List Char)
  | [] => [[]]
  | c :: rest => (c :: rest) :: suffixes rest

def matchesName : List Token → List Char → Bool
  | [], name => name.isEmpty
  | .anyChars :: rest, name => (suffixes name).any (matchesName rest)
  | .anyDirectories :: rest, name => (suffixes name).any (matchesName rest)
  | .anyChar :: rest, _ :: name => matchesName rest name
  | .char c :: rest, d :: name => c == d && matchesName rest name
  | .oneOf ranges :: rest, c :: name => ranges.any (·.contains c) && matchesName rest name
  | .noneOf ranges :: rest, c :: name => !ranges.any (·.contains c) && matchesName rest name
  | _ :: _, [] => false

def literalName : List Token → Option (List Char)
  | [] => some []
  | .char c :: rest => (literalName rest).map (c :: ·)
  | _ :: _ => none

/-! ## Matching files -/

def join (base name : String) : String :=
  if base.endsWith "/" then base ++ name else base ++ "/" ++ name

def isHere (path : String) : Bool :=
  match Place.components path with
  | "." :: rest => rest.all fun name => name = "" ∨ name = "."
  | _ => false

def below (base name : String) : String := if isHere base then name else join base name

def exists? (files : Files) (path : String) : Bool := (files.resolve path).toOption.isSome

/-- The two special names are matched only by patterns that begin with a point. -/
def specialNames (tokens : List Token) : List String :=
  if tokens.head? = some (.char '.') then
    ["..", "."].filter fun name => matchesName tokens name.toList
  else []

mutual

/--
The paths inside a directory that match patterns for one name after the other, in the order of the
names.  The fuel exceeds the directories and patterns on any way down.
-/
def expand (files : Files) : Nat → List (List Token) → String → List String
  | 0, _, _ => []
  | _ + 1, [], base => [base]
  | fuel + 1, tokens :: rest, base =>
    match literalName tokens with
    | some name =>
      let name := String.ofList name
      let next := below base name
      let found := if name = "." ∨ name = ".." then files.isDirectoryPath base
        else exists? files next
      if found then expand files fuel rest next else []
    | none =>
      match files.resolve base with
      | .error _ => []
      | .ok place =>
        if files.isDirectory place then
          (specialNames tokens).flatMap (fun name => expand files fuel rest (join base name)) ++
            (files.children place).flatMap (fun name => visit files fuel (tokens :: rest) base name)
        else []

def visit (files : Files) : Nat → List (List Token) → String → String → List String
  | 0, _, _, _ => []
  | _ + 1, [], _, _ => []
  | fuel + 1, tokens :: rest, base, name =>
    let path := below base name
    if tokens = [.anyDirectories] then
      let after := rest.dropWhile (· = [.anyDirectories])
      if files.isDirectoryPath path then
        (if after.isEmpty then [path] else visit files fuel after base name) ++
          expand files fuel (tokens :: after) path
      else if after.isEmpty then []
      else visit files fuel after base name
    else if matchesName tokens name.toList then expand files fuel rest path
    else []

end

/-- The parts of a pattern between its slashes; a slash at the end adds none. -/
def parts (pattern : String) : List String :=
  let names := Place.components pattern
  if names.getLast? = some "" then names.dropLast else names

/-- More than the directories and patterns that can follow each other. -/
def fuelFor (files : Files) (count : Nat) : Nat :=
  let places := files.contents.keys ++ files.directories
  let depth := places.foldl (fun depth place => max depth place.length) 0
  2 * (depth + 2) * (count + 1)

/-- The paths that match a pattern; one that ends in a slash matches directories only. -/
def paths (files : Files) (pattern : String) : Except Error (List String) := do
  let _ ← tokens pattern
  let names := if pattern.startsWith "/" then (parts pattern).dropWhile (· = "") else parts pattern
  let tokens ← names.mapM tokens
  let base := if pattern.startsWith "/" then "/" else "."
  let found := expand files (fuelFor files tokens.length) tokens base
  return if pattern.endsWith "/" then found.filter files.isDirectoryPath else found

def hasWildcards (path : String) : Bool :=
  path.any fun c => c == '*' || c == '?' || c == '[' || c == '\x7b'

def baseOf (pattern : String) : String :=
  "/".intercalate ((Place.components pattern).takeWhile fun name => !hasWildcards name)

end TypeSchema.Pattern
