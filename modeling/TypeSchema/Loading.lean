import TypeSchema.Files.Pattern
import TypeSchema.Json.Draft.OfText
import TypeSchema.Settings

/-!
# Loading files

The text of a file is read up to the end of its first value; what follows is not looked at.  Graphs
may come from several files, named by paths or by patterns that match at least one file.
-/

namespace TypeSchema

inductive LoadError where
  | unreadable (path : String) (error : FileError)
  | parse (file : String) (problem : Problem)
  | noMatches (input : String)
  | pattern (error : Pattern.Error)

def LoadError.message : LoadError → String
  | .unreadable path error => "failed to read " ++ path ++ ": " ++ error.message
  | .parse file (.cut .ended) => file ++ ": the text ends inside a value"
  | .parse file (.cut .malformed) => file ++ ": the text is not JSON"
  | .parse file (.data path reason) =>
    file ++ ": at JSON path " ++ path.text ++ " → " ++ reason.message
  | .noMatches input => "glob pattern matched no files: " ++ input
  | .pattern error => error.message

namespace Loading

/-! ## Texts -/

def read {α : Type} (decode : Decoder α) (file text : String) : Except LoadError α :=
  match decode Draft.maxDepth (Draft.ofText text) with
  | .ok value => .ok value
  | .error problem => .error (.parse file problem)

def graph (file text : String) : Except LoadError Graph := read Graph.decode file text

def settings (file text : String) : Except LoadError Settings := read Settings.decode file text

/-! ## Files -/

def text (files : Files) (path : String) : Except LoadError String :=
  (files.read path).mapError (.unreadable path)

def settingsAt (files : Files) (path : String) : Except LoadError Settings := do
  settings path (← text files path)

def graphAt (files : Files) (path : String) : Except LoadError Graph := do
  graph path (← text files path)

/-- The paths that one input stands for; only patterns are looked up. -/
def pathsOf (files : Files) (input : String) : Except LoadError (List String) :=
  if Pattern.hasWildcards input then
    match Pattern.paths files input with
    | .error error => .error (.pattern error)
    | .ok [] => .error (.noMatches input)
    | .ok paths => .ok paths
  else .ok [input]

def paths (files : Files) (inputs : List String) : Except LoadError (List String) := do
  return (← inputs.mapM (pathsOf files)).flatten

/-- The graphs of all inputs, merged in their order; the first problem decides. -/
def graphOf (files : Files) (inputs : List String) : Except LoadError Graph := do
  return Graph.mergeAll (← (← paths files inputs).mapM (graphAt files))

end Loading

end TypeSchema
