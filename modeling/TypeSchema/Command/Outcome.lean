import TypeSchema.Command.Arguments
import TypeSchema.Document
import TypeSchema.Loading

/-!
# Outcomes of tasks

A task reads files and leaves files, a text for the standard output and notices.  Switches only ever
turn a setting away from its default, so that they add to those of a settings file.
-/

namespace TypeSchema.Command

/-! ## Settings -/

def Switch.apply (settings : Settings) : Switch → Settings
  | .noRef => { settings with useRef := false }
  | .aliasRef => { settings with useTypeAliasRef := true }
  | .topRef => { settings with useRootRef := true }
  | .titles => { settings with useTitle := true }
  | .defaultProps => { settings with useDefaultProperties := true }
  | .noExtraProps => { settings with disableExtraProperties := true }
  | .propertyOrder => { settings with usePropertyOrder := true }
  | .typeOfKeyword => { settings with useTypeOfKeyword := true }
  | .required => { settings with generateRequired := true }
  | .strictNullChecks => { settings with strictNullChecks := true }
  | .ignoreErrors => { settings with ignoreErrors := true }

namespace Generation

def overlay (g : Generation) (base : Settings) : Settings :=
  let switched := g.switches.foldl Switch.apply base
  { switched with
    validationKeywords := base.validationKeywords ++ g.validationKeywords
    out := g.out.or base.out }

def settings (g : Generation) (files : Files) : Except LoadError Settings :=
  match g.config with
  | none => .ok (g.overlay Settings.default)
  | some path => (Loading.settingsAt files path).map g.overlay

def targetName (g : Generation) : String := g.target.getD Document.allTypes

end Generation

/-! ## Outcomes -/

inductive Fault where
  | load (error : LoadError)
  | generation (target : String) (failure : Failure)
  | writing (path : String) (error : FileError)
  | listing (failure : Failure)

def Fault.message : Fault → String
  | .load error => error.message
  | .generation target failure =>
    "failed to generate a schema for `" ++ target ++ "`: " ++ failure.message
  | .writing path error => "failed to write " ++ path ++ ": " ++ error.message
  | .listing failure => failure.message

inductive Status where
  | done
  /-- Diagnostics of the checker stopped the task. -/
  | stopped
  | failed (fault : Fault)

def Status.exitCode : Status → Nat
  | .done => 0
  | .stopped | .failed _ => 1

structure Outcome where
  files : Files
  output : String
  notices : List Notice
  status : Status

namespace Outcome

def idle (files : Files) (notices : List Notice) (status : Status) : Outcome :=
  ⟨files, "", notices, status⟩

def printing (files : Files) (notices : List Notice) (output : String) : Outcome :=
  ⟨files, output, notices, .done⟩

/-- A document goes to the file that the settings name, and else to the standard output. -/
def deliver (files : Files) (out : Option String) (notices : List Notice) (d : Definition) :
    Outcome :=
  match out with
  | none => printing files notices (Document.text d)
  | some path =>
    match files.write path (Document.text d) with
    | .ok later => ⟨later, "", notices, .done⟩
    | .error error => idle files notices (.failed (.writing path error))

end Outcome

namespace Generation

def load (g : Generation) (files : Files) : Except LoadError (Settings × Graph) := do
  let settings ← g.settings files
  let graph ← Loading.graphOf files g.inputs
  return (settings, graph)

def run (g : Generation) (files : Files) : Outcome :=
  match g.load files with
  | .error error => .idle files [] (.failed (.load error))
  | .ok (settings, graph) =>
    match Document.generate graph g.targetName settings with
    | (.error failure, notices) =>
      .idle files notices (.failed (.generation g.targetName failure))
    | (.ok none, notices) => .idle files notices .stopped
    | (.ok (some d), notices) => .deliver files settings.out notices d

end Generation

def listing (names : List String) : String := String.join (names.map (· ++ "\n"))

def listSymbols (inputs : List String) (files : Files) : Outcome :=
  match Loading.graphOf files inputs with
  | .error error => .idle files [] (.failed (.load error))
  | .ok graph =>
    match SymbolTable.collect graph with
    | (.error failure, notices) => .idle files notices (.failed (.listing failure))
    | (.ok table, notices) => .printing files notices (listing table.user.keys)

namespace Task

def run (task : Task) (files : Files) : Outcome :=
  match task with
  | .generate g => g.run files
  | .symbols inputs => listSymbols inputs files

end Task

end TypeSchema.Command
