import TypeSchema.Definition.EnumValues
import TypeSchema.Notice

/-!
# Enum declarations

An enum is described by the primitive types of its members' values and by the values themselves.  A
member whose value the checker could not compute has the value of its initializer, if that is a
literal scalar; otherwise it is left out with a notice.
-/

namespace TypeSchema

def Json.isScalar : Json → Bool
  | .arr _ => false
  | .obj _ => false
  | _ => true

def EnumMember.value (m : EnumMember) : Except Notice Json :=
  match m.constantValue, m.initializer with
  | some value, _ => .ok value
  | none, none => .error (.enumMemberWithoutValue m.name)
  | none, some initializer =>
    match Literal.evaluate initializer with
    | .ok (some value) =>
      if value.isScalar then .ok value else .error (.enumMemberNotScalar m.name)
    | .ok none => .error (.enumMemberUndefined m.name)
    | .error error => .error (.enumMemberNotLiteral m.name error)

namespace EnumDeclaration

def values (members : List EnumMember) : List Json := members.filterMap (·.value.toOption)

def notices (members : List EnumMember) : List Notice :=
  members.filterMap fun m =>
    match m.value with
    | .ok _ => none
    | .error notice => some notice

def types (values : List Json) : List String :=
  (values.map Definition.primitiveTypeOf).foldl
    (fun tags tag => if tag ∈ tags then tags else tags ++ [tag]) []

def describe (members : List EnumMember) (d : Definition) : Definition :=
  let values := values members
  (d.setTypes (types values)).insertIf (!values.isEmpty) "enum" (.arr (EnumValues.sort values))

end EnumDeclaration

end TypeSchema
