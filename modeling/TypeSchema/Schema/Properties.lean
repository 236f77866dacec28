import TypeSchema.Literal.Evaluation
import TypeSchema.Names
import TypeSchema.Schema.Union

/-!
# Objects with properties

Every property is described in the order of the type, and left out if it is annotated to be ignored.
A property is required unless it is optional, a method, or may be absent.
-/

namespace TypeSchema.Schema

def addDefault (property : Symbol) (initializer : Option Initializer) (d : Definition) :
    Describing Definition :=
  match initializer with
  | none => return d
  | some initializer =>
    match Literal.evaluate initializer with
    | .ok (some value) => return d.insert "default" value
    | .ok none => return d
    | .error error => do
      Describing.notice (.defaultSkipped property.name initializer.text error)
      return d

def writtenSymbol (g : Graph) (declaration : Option Declaration) :
    Except Failure (Option SymbolId) :=
  match declaration.bind (·.typeReference) with
  | some reference => some <$> g.resolveAlias reference
  | none => .ok none

/-- The definition of a property, or nothing if it is to be ignored. -/
def propertyDefinition (env : Environment) (describe : Describe) (id : SymbolId) :
    Describing (Option Definition) := do
  let property ← Run.ofExcept (env.graph.symbol id)
  let declaration ← Run.ofExcept (env.graph.firstDeclaration id)
  match property.type with
  | none =>
    Describing.notice (.untypedProperty property.name)
    return some Dict.empty
  | some type =>
    let reffed ← Run.ofExcept (writtenSymbol env.graph declaration)
    let d ← describe type ⟨env.settings.useRef, .oneOf, some id, reffed⟩
    if d.isIgnored then return none
    else some <$> addDefault property (declaration.bind (·.initializer)) d

structure ObjectParts where
  properties : Dict String Json
  order : List String
  required : List String

namespace ObjectParts

def empty : ObjectParts := ⟨∅, [], []⟩

def add (parts : ObjectParts) (name : String) (d : Definition) (isRequired : Bool) :
    ObjectParts where
  properties := parts.properties.insert name d.toJson
  order := parts.order ++ [name]
  required := if isRequired then Names.insert name parts.required else parts.required

def write (parts : ObjectParts) (settings : Settings) (d : Definition) : Definition :=
  let d := if d.hasType then d else d.setType "object"
  let d := d.insertIf (!parts.properties.isEmpty) "properties" (.ofDict parts.properties)
  let d := d.insertIf settings.useDefaultProperties "defaultProperties" (.arr [])
  let isClosed := settings.disableExtraProperties && !d.contains "additionalProperties"
  let d := d.insertIf isClosed "additionalProperties" (.bool false)
  let d := d.insertIf settings.usePropertyOrder "propertyOrder" (Json.strs parts.order)
  d.insertIf (settings.generateRequired && !parts.required.isEmpty) "required"
    (Json.strs parts.required)

end ObjectParts

def objectProperty (env : Environment) (describe : Describe) (parts : ObjectParts)
    (id : SymbolId) : Describing ObjectParts := do
  let property ← Run.ofExcept (env.graph.symbol id)
  match ← propertyDefinition env describe id with
  | none => return parts
  | some d =>
    let absent ← Describing.isMarkedAbsent id
    return parts.add property.name d (!property.isOptional && !property.isMethod && !absent)

def objectProperties (env : Environment) (describe : Describe) :
    ObjectParts → List SymbolId → Describing ObjectParts
  | parts, [] => return parts
  | parts, id :: rest => do
    let parts ← objectProperty env describe parts id
    objectProperties env describe parts rest

def objectDefinition (env : Environment) (describe : Describe) (properties : List SymbolId)
    (d : Definition) : Describing Definition := do
  let parts ← objectProperties env describe ObjectParts.empty properties
  return parts.write env.settings d

end TypeSchema.Schema
