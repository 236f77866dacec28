import TypeSchema.Graph.Basic
import TypeSchema.Literal.Evaluation

/-!
# Notices

What a generation reports without stopping, in the order in which it comes up.
-/

namespace TypeSchema

inductive Notice where
  | nullChecksDiffer (requested program : Bool)
  | unsupportedType (type : String)
  | functionAsObject (type : String)
  | memberListsTypes (member : TypeId)
  | untypedProperty (property : String)
  | defaultSkipped (property initializer : String) (error : Literal.Error)
  | enumMemberWithoutValue (member : String)
  | enumMemberUndefined (member : String)
  | enumMemberNotScalar (member : String)
  | enumMemberNotLiteral (member : String) (error : Literal.Error)
  | redeclared (name : String)
  | diagnostic (d : Diagnostic)
  deriving DecidableEq

namespace Notice

inductive Level where
  | warn
  | error
  deriving DecidableEq

def level : Notice → Level
  | .diagnostic _ => .error
  | _ => .warn

def message : Notice → String
  | .nullChecksDiffer .. =>
    "strictNullChecks differs from the setting the program was checked with"
  | .unsupportedType _ => "unsupported type; leaving it unconstrained"
  | .functionAsObject _ =>
    "function type rendered as an object; enable useTypeOfKeyword for `typeof`"
  | .memberListsTypes _ => "union member already lists several types"
  | .untypedProperty _ => "property has no type; leaving it unconstrained"
  | .defaultSkipped .. => "skipping default value"
  | .enumMemberWithoutValue _ => "enum member has no value"
  | .enumMemberUndefined _ => "enum member is undefined"
  | .enumMemberNotScalar _ => "enum member value is not a scalar"
  | .enumMemberNotLiteral .. => "enum member value is not a literal"
  | .redeclared _ => "type name declared in more than one module; keeping the last one"
  | .diagnostic d => d.text

def boolText (value : Bool) : String := if value then "true" else "false"

def fields : Notice → List (String × String)
  | .nullChecksDiffer requested program =>
    [("requested", boolText requested), ("program", boolText program)]
  | .unsupportedType type => [("type", type)]
  | .functionAsObject type => [("type", type)]
  | .memberListsTypes member => [("member", member.text)]
  | .untypedProperty property => [("property", property)]
  | .defaultSkipped property initializer error =>
    [("property", property), ("initializer", initializer), ("err", error.message)]
  | .enumMemberWithoutValue member => [("member", member)]
  | .enumMemberUndefined member => [("member", member)]
  | .enumMemberNotScalar member => [("member", member)]
  | .enumMemberNotLiteral member error => [("member", member), ("err", error.message)]
  | .redeclared name => [("name", name)]
  | .diagnostic _ => []

end Notice

end TypeSchema
