import TypeSchema.Notice
import TypeSchema.QualifiedName
import TypeSchema.Run

/-!
# Symbol tables

The named types of a graph, found by a walk over the declarations of every module: all of them,
those that are not part of the default library, and for each base type the names of the types that
extend it.  A name declared again stands for its last type.
-/

namespace TypeSchema

structure SymbolTable where
  all : Dict String TypeId
  user : Dict String TypeId
  inheriting : Dict String (List String)

namespace SymbolTable

def empty : SymbolTable := ⟨∅, ∅, ∅⟩

def addHeir (base heir : String) (heirs : Dict String (List String)) : Dict String (List String) :=
  heirs.insert base ((heirs.find? base).getD [] ++ [heir])

structure Collected where
  table : SymbolTable
  notices : List Notice

abbrev Collecting := Run Collected

def update (f : SymbolTable → SymbolTable) : Collecting Unit :=
  modify fun c => { c with table := f c.table }

def store (isLib : Bool) (name : String) (type : TypeId) : Collecting Unit := do
  let previous := (← get).table.all.find? name
  update fun t => { t with all := t.all.insert name type }
  if previous.any (· ≠ type) then
    modify fun c => { c with notices := c.notices ++ [.redeclared name] }
  if !isLib then update fun t => { t with user := t.user.insert name type }

def storeHeir (g : Graph) (heir : String) (base : TypeId) : Collecting Unit := do
  let node ← Run.ofExcept (g.typeNode base)
  let base := QualifiedName.stripModulePath node.name
  update fun t => { t with inheriting := addHeir base heir t.inheriting }

/-- Stores the type of a declaration that names one; without a symbol or a type it names none. -/
def register (g : Graph) (isLib : Bool) (d : Declaration) : Collecting Unit := do
  match d.symbol with
  | none => return
  | some id =>
    let symbol ← Run.ofExcept (g.symbol id)
    match symbol.type with
    | none => return
    | some type =>
      let name := QualifiedName.stripModulePath symbol.qualifiedName
      store isLib name type
      match (← Run.ofExcept (g.typeNode type)).kind with
      | .object object => object.baseTypes.forM (storeHeir g name)
      | _ => return

/--
Looks for named types in a declaration and its children.  The depth exceeds the number of
declarations, so a walk that comes to its end is inside a declaration that is nested in itself.
-/
def inspect (g : Graph) (isLib : Bool) : Nat → DeclarationId → Collecting Unit
  | 0, id => throw (.endlessNesting id.text)
  | depth + 1, id => do
    let d ← Run.ofExcept (g.declaration id)
    if d.kind.namesType then register g isLib d
    else d.children.forM (inspect g isLib depth)

def inspectModule (g : Graph) (m : SourceModule) : Collecting Unit :=
  m.statements.forM (inspect g m.isDefaultLib (g.declarations.size + 1))

/-- The table of a graph, and the notices given on the way to it or to a failure. -/
def collect (g : Graph) : Except Failure SymbolTable × List Notice :=
  let (outcome, c) := (g.modules.forM (inspectModule g)).on ⟨empty, []⟩
  (outcome.map fun _ => c.table, c.notices)

end SymbolTable

end TypeSchema
