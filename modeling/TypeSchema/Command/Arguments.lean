import TypeSchema.Settings

/-!
# Command lines

A command line names a task, generating a document or listing types, and gives it options.  An
option is written with its name, `--name` or `--name=value`, or with its letter after one dash,
where letters may share the dash and the last may be followed by its value.  A value may also be
the next word; options for several values take all words up to the next option.  Nothing but the
name of the task stands alone.
-/

namespace TypeSchema.Command

/-! ## Options -/

inductive Switch where
  | noRef
  | aliasRef
  | topRef
  | titles
  | defaultProps
  | noExtraProps
  | propertyOrder
  | typeOfKeyword
  | required
  | strictNullChecks
  | ignoreErrors
  deriving DecidableEq

inductive Parameter where
  | input
  | target
  | config
  | out
  | validationKeywords
  deriving DecidableEq

namespace Parameter

def takesMany : Parameter → Bool
  | .input | .validationKeywords => true
  | .target | .config | .out => false

/-- Paths must not be empty; inputs may be, since they are patterns first. -/
def refusesEmpty : Parameter → Bool
  | .config | .out => true
  | .input | .target | .validationKeywords => false

end Parameter

inductive Meaning where
  | verbose
  | quiet
  | help
  | version
  | switch (s : Switch)
  | parameter (p : Parameter)
  deriving DecidableEq

structure Spelling where
  name : String
  letter : Option Char
  meaning : Meaning

/-- Where options stand: before the name of the task or after it. -/
inductive Scope where
  | program
  | generate
  | symbols
  deriving DecidableEq

namespace Scope

def everywhere : List Spelling :=
  [⟨"verbose", some 'v', .verbose⟩, ⟨"quiet", some 'q', .quiet⟩, ⟨"help", some 'h', .help⟩]

def input : Spelling := ⟨"input", some 'i', .parameter .input⟩

def switches : List Spelling :=
  [⟨"no-ref", none, .switch .noRef⟩,
    ⟨"alias-ref", none, .switch .aliasRef⟩,
    ⟨"top-ref", none, .switch .topRef⟩,
    ⟨"titles", none, .switch .titles⟩,
    ⟨"default-props", none, .switch .defaultProps⟩,
    ⟨"no-extra-props", none, .switch .noExtraProps⟩,
    ⟨"property-order", none, .switch .propertyOrder⟩,
    ⟨"type-of-keyword", none, .switch .typeOfKeyword⟩,
    ⟨"required", none, .switch .required⟩,
    ⟨"strict-null-checks", none, .switch .strictNullChecks⟩,
    ⟨"ignore-errors", none, .switch .ignoreErrors⟩]

def spellings : Scope → List Spelling
  | .program => ⟨"version", some 'V', .version⟩ :: everywhere
  | .symbols => input :: everywhere
  | .generate =>
    [input, ⟨"type", some 't', .parameter .target⟩, ⟨"config", none, .parameter .config⟩,
      ⟨"out", some 'o', .parameter .out⟩,
      ⟨"validation-keywords", none, .parameter .validationKeywords⟩] ++ switches ++ everywhere

def named (scope : Scope) (name : String) : Option Meaning :=
  (scope.spellings.find? (·.name == name)).map (·.meaning)

def lettered (scope : Scope) (letter : Char) : Option Meaning :=
  (scope.spellings.find? (·.letter == some letter)).map (·.meaning)

end Scope

/-! ## Words -/

inductive Word where
  /-- Two dashes alone: no options follow. -/
  | separator
  | long (name : String) (value : Option String)
  | short (letters : List Char)
  | plain (text : String)

namespace Word

def ofString (word : String) : Word :=
  match word.toList with
  | ['-', '-'] => .separator
  | '-' :: '-' :: rest =>
    .long (String.ofList (rest.takeWhile (· ≠ '=')))
      (match rest.dropWhile (· ≠ '=') with
        | [] => none
        | _ :: value => some (String.ofList value))
  | ['-'] => .plain word
  | '-' :: letters => .short letters
  | _ => .plain word

end Word

/-! ## Reading options -/

inductive Usage where
  | help
  | version
  | nothingGiven
  | missingTask
  | unknownTask
  | unknownArgument
  /-- A switch is given a value. -/
  | unexpectedValue
  /-- A parameter is given none, or one that it refuses. -/
  | invalidValue
  /-- Options exclude each other, or one is given twice. -/
  | conflict
  | missingInput
  deriving DecidableEq

structure Given where
  verbose : Nat
  quiet : Bool
  switches : List Switch
  values : Dict Parameter (List String)

namespace Given

def nothing : Given := ⟨0, false, [], Dict.empty⟩

def isNothing (given : Given) : Bool :=
  given.verbose == 0 && !given.quiet && given.switches.isEmpty && given.values.isEmpty

def addSwitch (given : Given) (s : Switch) : Except Usage Given :=
  if s ∈ given.switches then .error .conflict
  else .ok { given with switches := given.switches ++ [s] }

def addValues (given : Given) (p : Parameter) (values : List String) : Except Usage Given :=
  let earlier := given.values.find? p
  if values.isEmpty then .error .invalidValue
  else if earlier.isSome && !p.takesMany then .error .conflict
  else if p.refusesEmpty && values.contains "" then .error .invalidValue
  else .ok { given with values := given.values.insert p (earlier.getD [] ++ values) }

def all (given : Given) (p : Parameter) : List String := (given.values.find? p).getD []

def only (given : Given) (p : Parameter) : Option String := (given.all p).head?

/-- One cannot ask for more and for less of the log in one scope. -/
def check (given : Given) : Except Usage Unit :=
  if given.quiet && given.verbose ≠ 0 then .error .conflict else .ok ()

end Given

structure Pending where
  parameter : Parameter
  values : List String
  deriving DecidableEq

namespace Pending

def awaits (p : Pending) : Bool := p.parameter.takesMany || p.values.isEmpty

end Pending

structure Reading where
  given : Given
  pending : Option Pending

namespace Reading

def start : Reading := ⟨Given.nothing, none⟩

/-- The values of a pending parameter count only now. -/
def settle (r : Reading) : Except Usage Given :=
  match r.pending with
  | none => .ok r.given
  | some p => r.given.addValues p.parameter p.values

/-- An option that stands without a value, or with one that follows it. -/
def option (r : Reading) (meaning : Meaning) : Except Usage Reading := do
  let given ← r.settle
  match meaning with
  | .help => throw .help
  | .version => throw .version
  | .verbose => return ⟨{ given with verbose := given.verbose + 1 }, none⟩
  | .quiet =>
    if given.quiet then throw .conflict
    else return ⟨{ given with quiet := true }, none⟩
  | .switch s => return ⟨← given.addSwitch s, none⟩
  | .parameter p => return ⟨given, some ⟨p, []⟩⟩

/-- A value in the word of its option is the only one. -/
def attached (r : Reading) (p : Parameter) (value : String) : Except Usage Reading := do
  return ⟨← (← r.settle).addValues p [value], none⟩

def named (scope : Scope) (r : Reading) (name : String) (value : Option String) :
    Except Usage Reading :=
  match scope.named name, value with
  | none, _ => .error .unknownArgument
  | some meaning, none => r.option meaning
  | some (.parameter p), some value => r.attached p value
  | some _, some _ => .error .unexpectedValue

/-- The letters after a dash; what follows the letter of a parameter is its value. -/
def letters (scope : Scope) (r : Reading) : List Char → Except Usage Reading
  | [] => .ok r
  | letter :: rest =>
    match scope.lettered letter, rest with
    | none, _ => .error .unknownArgument
    | some (.parameter p), '=' :: value => r.attached p (String.ofList value)
    | some (.parameter p), c :: value => r.attached p (String.ofList (c :: value))
    | some meaning, rest => do letters scope (← r.option meaning) rest

def value (r : Reading) (text : String) : Except Usage Reading :=
  match r.pending with
  | some p =>
    if p.awaits then .ok { r with pending := some { p with values := p.values ++ [text] } }
    else .error .unknownArgument
  | none => .error .unknownArgument

def readAll (scope : Scope) (r : Reading) : List String → Except Usage Given
  | [] => r.settle
  | word :: rest =>
    match Word.ofString word with
    | .separator => if rest.isEmpty then r.settle else .error .unknownArgument
    | .long name value => do readAll scope (← r.named scope name value) rest
    | .short letters => do readAll scope (← r.letters scope letters) rest
    | .plain text => do readAll scope (← r.value text) rest

end Reading

/-! ## Tasks -/

structure Generation where
  inputs : List String
  target : Option String
  config : Option String
  out : Option String
  switches : List Switch
  validationKeywords : List String

inductive Task where
  | generate (g : Generation)
  | symbols (inputs : List String)

inductive Verbosity where
  | error
  | warn
  | debug
  | trace
  deriving DecidableEq

structure Invocation where
  task : Task
  verbosity : Verbosity

inductive TaskName where
  | generate
  | symbols
  | help
  deriving DecidableEq

namespace TaskName

def ofString? : String → Option TaskName
  | "generate" => some .generate
  | "symbols" => some .symbols
  | "help" => some .help
  | _ => none

end TaskName

/-- Options on both sides of the name of the task count; the inner ones go before the outer ones. -/
def verbosity (outer inner : Given) : Verbosity :=
  if outer.quiet || inner.quiet then .error
  else
    match if inner.verbose = 0 then outer.verbose else inner.verbose with
    | 0 => .warn
    | 1 => .debug
    | _ => .trace

def generation (given : Given) : Generation where
  inputs := given.all .input
  target := given.only .target
  config := given.only .config
  out := given.only .out
  switches := given.switches
  validationKeywords := given.all .validationKeywords

def readTask (outer : Reading) (scope : Scope) (task : Given → Task) (words : List String) :
    Except Usage Invocation := do
  let inner ← Reading.start.readAll scope words
  inner.check
  if (inner.all .input).isEmpty then throw .missingInput
  let outer ← outer.settle
  outer.check
  return ⟨task inner, verbosity outer inner⟩

def helpUsage : List String → Usage
  | [] => .help
  | [name] => if (TaskName.ofString? name).isSome then .help else .unknownTask
  | _ => .unknownTask

def withoutTask (outer : Reading) : Except Usage Invocation := do
  let given ← outer.settle
  throw (if given.isNothing then .nothingGiven else .missingTask)

def readFrom (outer : Reading) : List String → Except Usage Invocation
  | [] => withoutTask outer
  | word :: rest =>
    match Word.ofString word with
    | .separator =>
      match rest with
      | [] => withoutTask outer
      | next :: _ =>
        .error (if (TaskName.ofString? next).isSome then .unknownArgument else .unknownTask)
    | .long name value => do readFrom (← outer.named .program name value) rest
    | .short letters => do readFrom (← outer.letters .program letters) rest
    | .plain text =>
      match TaskName.ofString? text with
      | none => .error .unknownTask
      | some .help => .error (helpUsage rest)
      | some .generate => readTask outer .generate (fun given => .generate (generation given)) rest
      | some .symbols => readTask outer .symbols (fun given => .symbols (given.all .input)) rest

def read (words : List String) : Except Usage Invocation := readFrom Reading.start words

end TypeSchema.Command
