import TypeSchema.Definition.EnumValues
import TypeSchema.Schema.Run
import TypeSchema.Schema.Shape

/-!
# Unions

The members of a union are sorted into literal values, which make one `enum`, bare types, which make
one `type`, and all others.  Undefined makes nothing, but the property may then be absent.  A single
part is written as it is, several under the union's keyword.
-/

namespace TypeSchema

structure UnionParts where
  values : List Json
  tags : List String
  schemas : List Definition

namespace UnionParts

def empty : UnionParts := ⟨[], [], []⟩

def addValue (parts : UnionParts) (value : Json) : UnionParts :=
  if Json.elem value parts.values then parts
  else { parts with values := parts.values ++ [value] }

def addTag (parts : UnionParts) (tag : String) : UnionParts :=
  if tag ∈ parts.tags then parts else { parts with tags := parts.tags ++ [tag] }

def addSchema (parts : UnionParts) (d : Definition) : UnionParts :=
  { parts with schemas := parts.schemas ++ [d] }

def isBooleanPair (values : List Json) : Bool := values.length == 2 && values.all Json.isBool

/-- The type that all values share, if it is one that a type tag can state for them. -/
def commonType (values : List Json) : Option String :=
  match values.map Definition.primitiveTypeOf with
  | [] => none
  | first :: rest =>
    if (first = "string" ∨ first = "number" ∨ first = "boolean") ∧ rest.all (· == first) then
      some first
    else none

def enumSchema (values : List Json) : Definition :=
  let sorted := EnumValues.sort values
  let d := match commonType sorted with
    | some tag => Definition.ofType tag
    | none => Dict.empty
  d.insert "enum" (.arr sorted)

/-- Both truth values together are the type of truth values. -/
def joinBooleans (parts : UnionParts) : UnionParts :=
  if isBooleanPair parts.values then { parts.addTag "boolean" with values := [] } else parts

/-- The branches: other schemas first, then the values, then the bare types. -/
def branches (parts : UnionParts) : List Definition :=
  let parts := parts.joinBooleans
  parts.schemas ++
    (if parts.values.isEmpty then [] else [enumSchema parts.values]) ++
    (if parts.tags.isEmpty then [] else [Definition.setTypes Dict.empty parts.tags])

def write (parts : UnionParts) (keyword : UnionKeyword) (d : Definition) : Definition :=
  match parts.branches with
  | [] => d
  | [only] => d.merge only
  | branches => d.insert keyword.text (.arr (branches.map Definition.toJson))

end UnionParts

abbrev Describe := TypeId → Context → Describing Definition

namespace Schema

/-- A definition that says nothing but a list of types. -/
def listsTypes (d : Definition) : Bool := d.size == 1 && d.typeTag.any Json.isArr

def unionMember (env : Environment) (describe : Describe) (property : Option SymbolId)
    (parts : UnionParts) (member : TypeId) : Describing UnionParts := do
  match Shape.literalValue (← Run.ofExcept (env.graph.typeNode member)) with
  | some value => return parts.addValue value
  | none =>
    let d ← describe member (Context.nested env.settings)
    match d.bareType with
    | some "undefined" =>
      match property with
      | some property => Describing.markAbsent property
      | none => pure ()
      return parts
    | some tag => return parts.addTag tag
    | none =>
      if listsTypes d then Describing.notice (.memberListsTypes member)
      return parts.addSchema d

def unionMembers (env : Environment) (describe : Describe) (property : Option SymbolId) :
    UnionParts → List TypeId → Describing UnionParts
  | parts, [] => return parts
  | parts, member :: rest => do
    let parts ← unionMember env describe property parts member
    unionMembers env describe property parts rest

def unionDefinition (env : Environment) (describe : Describe) (members : List TypeId)
    (ctx : Context) (d : Definition) : Describing Definition := do
  let parts ← unionMembers env describe ctx.property UnionParts.empty members
  return parts.write ctx.unionKeyword d

end Schema

end TypeSchema
