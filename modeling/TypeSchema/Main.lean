import TypeSchema.Command.Outcome

/-!
# The program

Looks up the files that a task may read, runs the task on them and writes what it leaves: files, the
standard output and, on the standard error, notices and the reason of a failure.
-/

namespace TypeSchema.Main

open Command

/-! ## Gathering files -/

/-- Directories nested deeper are not looked into. -/
def maxDepth : Nat := 64

def lookAt (files : Files) (path : String) : IO Files := do
  let place := (← IO.currentDir) / path
  if ← place.isDir then return files.addDirectory path
  else if ← place.pathExists then return files.addFile path ""
  else return files

def lookBelow : Nat → String → Files → IO Files
  | 0, _, files => return files
  | depth + 1, path, files => do
    let place := (← IO.currentDir) / path
    if !(← place.isDir) then lookAt files path
    else
      (← place.readDir).foldlM
        (fun files entry => lookBelow depth (Pattern.join path entry.fileName) files)
        (files.addDirectory path)

def lookFor (files : Files) (input : String) : IO Files :=
  if Pattern.hasWildcards input then
    match Pattern.baseOf input with
    | "" => lookBelow maxDepth (if input.startsWith "/" then "/" else ".") files
    | base => lookBelow maxDepth base files
  else lookAt files input

/-- Reads a file that is there; a missing one is the task's concern. -/
def readInto (files : Files) (path : String) : IO Files := do
  match files.resolve path with
  | .ok place =>
    if files.isFile place then return files.addFile path (← IO.FS.readFile path)
    else return files
  | .error _ => return files

def configOf : Task → Option String
  | .generate g => g.config
  | .symbols _ => none

def inputsOf : Task → List String
  | .generate g => g.inputs
  | .symbols inputs => inputs

def gather (task : Task) : IO Files := do
  let config := (configOf task).toList
  let files ← config.foldlM lookAt Files.empty
  let files ← (inputsOf task).foldlM lookFor files
  let paths := (Loading.paths files (inputsOf task)).toOption.getD []
  (config ++ paths).foldlM readInto files

/-! ## Reporting -/

def noticeText (n : Notice) : String :=
  let fields := n.fields.map fun field => " " ++ field.1 ++ "=" ++ field.2
  (match n.level with | .warn => "WARN " | .error => "ERROR ") ++ n.message ++ String.join fields

def isShown (verbosity : Verbosity) (n : Notice) : Bool :=
  verbosity ≠ .error || n.level = .error

def helpText : String :=
  "usage: generate --input <path>... [--type <name>] [options]\n" ++
  "       symbols --input <path>...\n"

def usageText : Usage → String
  | .help | .nothingGiven => helpText
  | .version => "1.0\n"
  | .missingTask => "error: the name of a task is missing\n"
  | .unknownTask => "error: there is no such task\n"
  | .unknownArgument => "error: there is no such argument\n"
  | .unexpectedValue => "error: an option is given a value that it does not take\n"
  | .invalidValue => "error: an option lacks its value\n"
  | .conflict => "error: options exclude each other\n"
  | .missingInput => "error: the input is missing\n"

/-- Asking for help is no misuse. -/
def explain (usage : Usage) : IO UInt32 := do
  if usage = .help ∨ usage = .version then
    IO.print (usageText usage)
    return 0
  else
    IO.eprint (usageText usage)
    return 2

/-! ## Running -/

def writeFile (file : String × String) : IO Unit := do
  if let some directory := ((← IO.currentDir) / file.1).parent then IO.FS.createDirAll directory
  IO.FS.writeFile file.1 file.2

def perform (invocation : Invocation) : IO UInt32 := do
  let files ← gather invocation.task
  let outcome := invocation.task.run files
  for n in outcome.notices do
    if isShown invocation.verbosity n then IO.eprintln (noticeText n)
  (files.changes outcome.files).forM writeFile
  IO.print outcome.output
  if let .failed fault := outcome.status then IO.eprintln ("error: " ++ fault.message)
  return outcome.status.exitCode.toUInt32

end TypeSchema.Main

def main (args : List String) : IO UInt32 :=
  match TypeSchema.Command.read args with
  | .error usage => TypeSchema.Main.explain usage
  | .ok invocation => TypeSchema.Main.perform invocation
