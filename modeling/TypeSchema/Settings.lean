import TypeSchema.Graph.Format

/-!
# Settings

What shapes the documents.  A settings file is one JSON object; fields left out keep their defaults
and unknown fields are refused, so that a misspelt name does not go unnoticed.
-/

namespace TypeSchema

structure Settings where
  /-- Refer to named types through `definitions` instead of inlining them. -/
  useRef : Bool
  useTypeAliasRef : Bool
  useRootRef : Bool
  useTitle : Bool
  /-- Give objects an empty list of default properties. -/
  useDefaultProperties : Bool
  /-- Objects admit no further properties unless an annotation says so. -/
  disableExtraProperties : Bool
  usePropertyOrder : Bool
  /-- Write functions with the `typeof` keyword. -/
  useTypeOfKeyword : Bool
  generateRequired : Bool
  /-- The null checks that the graph is expected to be made with. -/
  strictNullChecks : Bool
  /-- Generate although the checker reported diagnostics. -/
  ignoreErrors : Bool
  /-- Names of annotations that are keywords besides the usual ones. -/
  validationKeywords : List String
  out : Option String
  deriving DecidableEq

namespace Settings

def default : Settings where
  useRef := true
  useTypeAliasRef := false
  useRootRef := false
  useTitle := false
  useDefaultProperties := false
  disableExtraProperties := false
  usePropertyOrder := false
  useTypeOfKeyword := false
  generateRequired := false
  strictNullChecks := false
  ignoreErrors := false
  validationKeywords := []
  out := none

instance : Inhabited Settings := ⟨default⟩

open Decoder in
def form : Record Settings where
  title := "Options"
  blank := default
  fields := [
    field "useRef" bool fun value s => { s with useRef := value },
    field "useTypeAliasRef" bool fun value s => { s with useTypeAliasRef := value },
    field "useRootRef" bool fun value s => { s with useRootRef := value },
    field "useTitle" bool fun value s => { s with useTitle := value },
    field "useDefaultProperties" bool fun value s => { s with useDefaultProperties := value },
    field "disableExtraProperties" bool fun value s => { s with disableExtraProperties := value },
    field "usePropertyOrder" bool fun value s => { s with usePropertyOrder := value },
    field "useTypeOfKeyword" bool fun value s => { s with useTypeOfKeyword := value },
    field "generateRequired" bool fun value s => { s with generateRequired := value },
    field "strictNullChecks" bool fun value s => { s with strictNullChecks := value },
    field "ignoreErrors" bool fun value s => { s with ignoreErrors := value },
    field "validationKeywords" (list string) fun value s => { s with validationKeywords := value },
    field "out" (optional filePath) fun value s => { s with out := value }]
  closed := true

def decode : Decoder Settings := form.decode

def toJson (s : Settings) : Json :=
  .obj [("useRef", .bool s.useRef), ("useTypeAliasRef", .bool s.useTypeAliasRef),
    ("useRootRef", .bool s.useRootRef), ("useTitle", .bool s.useTitle),
    ("useDefaultProperties", .bool s.useDefaultProperties),
    ("disableExtraProperties", .bool s.disableExtraProperties),
    ("usePropertyOrder", .bool s.usePropertyOrder),
    ("useTypeOfKeyword", .bool s.useTypeOfKeyword),
    ("generateRequired", .bool s.generateRequired),
    ("strictNullChecks", .bool s.strictNullChecks), ("ignoreErrors", .bool s.ignoreErrors),
    ("validationKeywords", Json.strs s.validationKeywords),
    ("out", Json.ofOption Json.str s.out)]

end Settings

end TypeSchema
