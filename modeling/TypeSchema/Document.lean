import TypeSchema.Json.Printer
import TypeSchema.Schema.OfType

/-!
# Documents

A document describes one type by name, or all types that are not part of the default library, and
brings along the definitions that it refers to.
-/

namespace TypeSchema

namespace Document

def allTypes : String := "*"

def environment (g : Graph) (settings : Settings) (table : SymbolTable) : Environment :=
  ⟨g, settings, table⟩

def registryJson (registry : Dict String Definition) : Dict String Json :=
  registry.mapValues Definition.toJson

def forType (env : Environment) (name : String) : Describing Definition := do
  match env.table.all.find? name with
  | none => throw (.unknownType name)
  | some type =>
    let root ← Schema.define env type (Context.standing env.settings.useRootRef)
    let registry := (← get).registry
    let root := if env.settings.useRef && !registry.isEmpty then
        root.insert "definitions" (.ofDict (registryJson registry))
      else root
    return root.insert "$schema" (.str Definition.draft04)

def inlined (env : Environment) (types : Entries String TypeId) :
    Describing (Entries String Json) :=
  Describing.forEach (fun entry => do
    return (entry.1, (← Schema.define env entry.2 (Context.standing false)).toJson)) types

/-- The document of all user types; definitions that are referred to take the place of others. -/
def forAllTypes (env : Environment) : Describing Definition := do
  let definitions := Dict.ofEntries (← inlined env env.table.user.entries)
  let definitions := definitions.merge (registryJson (← get).registry)
  return ((Dict.empty : Definition).insert "$schema" (.str Definition.draft04)).insert "definitions"
    (.ofDict definitions)

def forTarget (env : Environment) (target : String) : Describing Definition :=
  if target = allTypes then forAllTypes env else forType env target

/-- What a run from the beginning gives, with its notices. -/
def outcome {α : Type} (run : Describing α) : Except Failure α × List Notice :=
  let (result, progress) := run.on Progress.initial
  (result, progress.notices)

def nullCheckNotices (g : Graph) (settings : Settings) : List Notice :=
  if settings.strictNullChecks = g.strictNullChecks then []
  else [.nullChecksDiffer settings.strictNullChecks g.strictNullChecks]

/--
The document for a target.  Diagnostics of the checker stop it, unless they are to be ignored; there
is then no document but their notices.
-/
def generate (g : Graph) (target : String) (settings : Settings) :
    Except Failure (Option Definition) × List Notice :=
  let notices := nullCheckNotices g settings
  if !g.diagnostics.isEmpty && !settings.ignoreErrors then
    (.ok none, notices ++ g.diagnostics.map .diagnostic)
  else
    match SymbolTable.collect g with
    | (.error failure, collected) => (.error failure, notices ++ collected)
    | (.ok table, collected) =>
      let (result, described) := outcome (forTarget (environment g settings table) target)
      (result.map some, notices ++ collected ++ described)

def text (d : Definition) : String := Json.documentText d.toJson

end Document

end TypeSchema
