import TypeSchema.Definition.Basic
import TypeSchema.Graph.Basic
import TypeSchema.QualifiedName

/-!
# Shapes of types

The shape of a type says how its definition is made.  It is decided from the type, its symbol and
the first declaration of the symbol; the first rule that fits decides.
-/

namespace TypeSchema

inductive IndexKey where
  | string
  | number
  deriving DecidableEq

inductive Shape where
  | union (members : List TypeId)
  | intersection (members : List TypeId)
  | tuple (elements : List TypeId)
  | primitive (tag : String)
  | literal (value : Json)
  | array (element : TypeId)
  | date
  | nonPrimitive
  | unconstrained
  | unsupported
  | enum (declaration : Declaration)
  | emptyObject
  | function
  | map (key : IndexKey) (value : TypeId)
  | abstract
  | object (properties : List SymbolId)

namespace Shape

def rawNames : List String := ["integer", "Array", "ReadonlyArray", "Date"]

/-- The value of a literal type; a number loses the way in which it was written. -/
def literalValue (node : TypeNode) : Option Json :=
  match node.kind with
  | .stringLiteral value => some (.str value)
  | .numberLiteral value => some (Definition.numberValue (some value))
  | .booleanLiteral value => some (.bool value)
  | .enumLiteral (.num number) => some (Definition.numberValue number.toBinary64?)
  | .enumLiteral value => some value
  | _ => none

def symbolOf (g : Graph) (id : Option SymbolId) : Except Failure (Option Symbol) :=
  match id with
  | none => .ok none
  | some id => (g.symbol id).map some

def nameOf (g : Graph) (id : Option SymbolId) : Except Failure (Option String) := do
  return (← symbolOf g id).map (·.name)

def arrayOf : Option TypeId → Shape
  | some element => array element
  | none => unsupported

def ofKind (name : Option String) (reffedName : Option String) : TypeKind → Shape
  | .string => primitive "string"
  | .number =>
    primitive (if name = some "integer" ∨ reffedName = some "integer" then "integer" else "number")
  | .boolean => primitive "boolean"
  | .null => primitive "null"
  | .undefined => primitive "undefined"
  | .any => unconstrained
  | .unknown => unconstrained
  | .nonPrimitive => nonPrimitive
  | .object type =>
    if name = some "Date" then date
    else if name = some "Array" ∨ name = some "ReadonlyArray" then
      arrayOf (type.typeArguments.head?.or type.numberIndex)
    else arrayOf type.numberIndex
  | _ => unsupported

def ofRoot (g : Graph) (node : TypeNode) (reffed : Option SymbolId) : Except Failure Shape :=
  match literalValue node with
  | some value => .ok (literal value)
  | none => do
    let name ← nameOf g node.symbol
    match node.kind with
    | .number => return ofKind name (← nameOf g reffed) node.kind
    | kind => return ofKind name none kind

/-- The one parameter of an index signature must be a string or a number. -/
def indexKey (g : Graph) (node : TypeNode) (parameters : List TypeId) : Except Failure IndexKey :=
  match parameters with
  | [key] => do
    let keyNode ← g.typeNode key
    match keyNode.kind with
    | .string => return .string
    | .number => return .number
    | _ =>
      throw (.unsupportedIndexKey (QualifiedName.stripModulePath node.name) keyNode.name)
  | parameters =>
    throw (.indexSignatureArity (QualifiedName.stripModulePath node.name) parameters.length)

def membersOf : Option Declaration → List Member
  | some d => d.members
  | none => []

/-- What an object type without properties maps to, if it is a map. -/
def mapOf (g : Graph) (node : TypeNode) (declaration : Option Declaration)
    (stringIndex numberIndex : Option TypeId) : Except Failure (Option Shape) :=
  match membersOf declaration with
  | [.indexSignature parameters value] => do
    return some (map (← indexKey g node parameters) value)
  | [] =>
    match stringIndex, numberIndex with
    | some value, _ => return some (map .string value)
    | none, some value => return some (map .number value)
    | none, none => return none
  | _ => return none

def objectParts : TypeKind → List SymbolId × Option TypeId × Option TypeId
  | .object type => (type.properties, type.stringIndex, type.numberIndex)
  | _ => ([], none, none)

def ofClass (g : Graph) (node : TypeNode) (declaration : Option Declaration) :
    Except Failure Shape := do
  if declaration.any (·.kind = .functionType) then return function
  let (properties, stringIndex, numberIndex) := objectParts node.kind
  let mapped ←
    if properties.isEmpty then mapOf g node declaration stringIndex numberIndex else pure none
  match mapped with
  | some shape => return shape
  | none => return if declaration.any (·.isAbstract) then abstract else object properties

def isEmptyLiteral (node : TypeNode) (symbol : Symbol) (declaration : Option Declaration) : Bool :=
  let (properties, stringIndex, numberIndex) := objectParts node.kind
  symbol.isTypeLiteral && properties.isEmpty && stringIndex.isNone && numberIndex.isNone &&
    !declaration.any (·.kind = .mappedType) && !declaration.any (!·.members.isEmpty)

def ofNamed (g : Graph) (node : TypeNode) (reffed : Option SymbolId) : Except Failure Shape :=
  match node.symbol with
  | none => do
    match ← ofRoot g node reffed, node.kind with
    | unsupported, .object _ => ofClass g node none
    | shape, _ => return shape
  | some id => do
    let symbol ← g.symbol id
    if symbol.name ∈ rawNames then ofRoot g node reffed
    else
      let declaration ← g.firstDeclaration id
      match declaration with
      | some d =>
        if d.kind = .enum then return enum d
        else if isEmptyLiteral node symbol declaration then return emptyObject
        else ofClass g node declaration
      | none =>
        if isEmptyLiteral node symbol none then return emptyObject else ofClass g node none

def ofNode (g : Graph) (node : TypeNode) (reffed : Option SymbolId) : Except Failure Shape :=
  match node.kind with
  | .union members => .ok (union members)
  | .intersection members => .ok (intersection members)
  | .tuple elements => .ok (tuple elements)
  | .object _ => ofNamed g node reffed
  | .enum => ofNamed g node reffed
  | _ => ofRoot g node reffed

end Shape

end TypeSchema
