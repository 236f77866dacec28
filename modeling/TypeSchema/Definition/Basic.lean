import TypeSchema.Json.Basic

/-!
# Definitions

A definition is the part of a schema that stands for one type or property: an object of keywords in
the order in which they were stored.  The keywords understood here have names of their own; all
others pass through unchanged.
-/

namespace TypeSchema

abbrev Definition := Dict String Json

namespace Definition

def draft04 : String := "http://json-schema.org/draft-04/schema#"

def definitionsPointer : String := "#/definitions/"

def toJson (d : Definition) : Json := .ofDict d

def reference (name : String) : Definition :=
  Dict.empty.insert "$ref" (.str (definitionsPointer ++ name))

def insertIf (d : Definition) (condition : Bool) (key : String) (value : Json) : Definition :=
  if condition then d.insert key value else d

def setType (d : Definition) (tag : String) : Definition := d.insert "type" (.str tag)

def ofType (tag : String) : Definition := setType Dict.empty tag

/-- A single tag is stored alone, several as a list. -/
def setTypes (d : Definition) : List String → Definition
  | [] => d
  | [tag] => d.setType tag
  | tags => d.insert "type" (Json.strs tags)

def typeTag (d : Definition) : Option Json := d.find? "type"

def hasType (d : Definition) : Bool := d.contains "type"

def bareType (d : Definition) : Option String :=
  match d.entries with
  | [("type", .str tag)] => some tag
  | _ => none

def isIgnored (d : Definition) : Bool := d.contains "ignore"

/-! ## Admitting null -/

def nullBranch : Json := toJson (ofType "null")

def isNullBranch (branch : Json) : Bool := (branch.field? "type").any (·.same (.str "null"))

def unionKeyword (d : Definition) : Option (String × List Json) :=
  ["oneOf", "anyOf"].findSome? fun keyword =>
    match d.find? keyword with
    | some (.arr branches) => some (keyword, branches)
    | _ => none

theorem unionKeyword_eq_some {d : Definition} {keyword : String} {branches : List Json}
    (h : d.unionKeyword = some (keyword, branches)) :
    (keyword = "oneOf" ∨ keyword = "anyOf") ∧ d.find? keyword = some (.arr branches) := by
  obtain ⟨name, hname, h⟩ := List.exists_of_findSome?_eq_some h
  split at h
  · rename_i hfield
    cases h
    exact ⟨by simpa using hname, hfield⟩
  · cases h

def isPlain (d : Definition) : Bool := d.keys.all fun key => key == "type" || key == "description"

def addNullBranch (d : Definition) : Definition :=
  match d.unionKeyword with
  | some (keyword, branches) =>
    if branches.any isNullBranch then d
    else d.insert keyword (.arr (branches ++ [nullBranch]))
  | none => Dict.empty.insert "anyOf" (.arr [toJson d, nullBranch])

/--
Widens a definition so that null is valid too.  A plain type becomes a list that ends with null; an
existing union gets one more branch; anything else becomes the first branch of a new union.
-/
def makeNullable (d : Definition) : Definition :=
  if d.isPlain then
    match d.typeTag with
    | some (.str tag) =>
      if tag = "null" then d else d.insert "type" (.arr [.str tag, .str "null"])
    | some (.arr tags) =>
      if tags.any (·.same (.str "null")) then d
      else d.insert "type" (.arr (tags ++ [.str "null"]))
    | _ => d.addNullBranch
  else d.addNullBranch

/-! ## Literal values -/

def primitiveTypeOf : Json → String
  | .null => "null"
  | .bool _ => "boolean"
  | .num _ => "number"
  | .str _ => "string"
  | .arr _ => "array"
  | .obj _ => "object"

def literal (value : Json) (d : Definition) : Definition :=
  (d.setType (primitiveTypeOf value)).insert "enum" (.arr [value])

/-- Whole numbers below `2 ^ 53` become integers; no number at all becomes null. -/
def numberValue : Option Binary64 → Json
  | none => .null
  | some x =>
    if x.isWhole && x.truncate.natAbs < Nat.pow 2 53 then .int x.truncate else .num (.real x)

end Definition

end TypeSchema
