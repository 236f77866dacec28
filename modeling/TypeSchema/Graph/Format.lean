import TypeSchema.Graph.Basic
import TypeSchema.Json.Decoder

/-!
# The file format of graphs

Graphs are written as JSON objects.  Every field may be left out except those that give a type its
kind, a literal its value, or a list of parts to a type or member; unknown fields are skipped.
`Graph.toJson` writes all fields in the order declared here, and `Graph.decode` reads them back.
-/

namespace TypeSchema

open Decoder

def TypeId.decode : Decoder TypeId := fun room draft => (string room draft).map TypeId.mk

def SymbolId.decode : Decoder SymbolId := fun room draft => (string room draft).map SymbolId.mk

def DeclarationId.decode : Decoder DeclarationId :=
  fun room draft => (string room draft).map DeclarationId.mk

namespace Graph.Format

/-! ## Objects that name their kind -/

/-- Splits the fields of an object into its kind and the rest, kept as plain values. -/
def splitKind {α : Type} (decode : Decoder α) (room : Nat) :
    List (Draft × Draft) → Option Cut → Option α → List (String × Json) →
      Except Problem (α × List (String × Json))
  | [], none, kind, rest => do return (← require "kind" kind, rest.reverse)
  | [], some fault, _, _ => cut fault
  | (key, draft) :: fields, fault, kind, rest => do
    let name ← lift key.toKey
    if name = "kind" then
      if kind.isSome then fail (.repeated name)
      let found ← within (.key name) (decode room draft)
      splitKind decode room fields fault (some found) rest
    else
      let value ← json room draft
      splitKind decode room fields fault kind ((name, value) :: rest)

def required {α : Type} (name : String) (decode : Decoder α) (fields : List (String × Json)) :
    Except Problem α := do
  let form : Record (Option α) :=
    ⟨name, none, [field name decode fun value _ => some value], false⟩
  require name (← ofEntries form fields)

/-! ## Declarations -/

def declarationKinds : List (String × DeclarationKind) := [
  ("class", .classType), ("interface", .interface), ("enum", .enum), ("enumMember", .enumMember),
  ("typeAlias", .typeAlias), ("typeLiteral", .typeLiteral), ("functionType", .functionType),
  ("mappedType", .mappedType), ("module", .module), ("property", .property), ("method", .method),
  ("other", .other)]

def initializerKinds : List (String × InitializerKind) :=
  [("literal", .literal), ("template", .template), ("expression", .expression)]

/-- What an object says beside its kind, by names or by places. -/
inductive Payload where
  | fields (fields : List (String × Json))
  | items (items : List Json)

def plain {α : Type} (decode : Decoder α) (value : Json) : Except Problem α :=
  here (decode Draft.maxDepth (Draft.ofJson value))

def memberSymbol (make : SymbolId → Member) (wanted : String) : Payload → Except Problem Member
  | .fields fields => (required "symbol" SymbolId.decode fields).map make
  | .items [] => fail (.length 0 wanted)
  | .items (item :: rest) => do
    let symbol ← plain SymbolId.decode item
    if rest.isEmpty then return make symbol
    else fail (.length (rest.length + 1) "1 element in sequence")

/-- Parameters and value type of an index signature while its fields are read. -/
abbrev SignatureParts := List TypeId × Option TypeId

def signatureForm : Record SignatureParts where
  title := "indexSignature"
  blank := ([], none)
  fields := [
    field "parameters" (list TypeId.decode) fun parameters parts => (parameters, parts.2),
    field "type" TypeId.decode fun value parts => (parts.1, some value)]
  closed := false

def memberSignature : Payload → Except Problem Member
  | .fields fields => do
    let (parameters, value) ← ofEntries signatureForm fields
    return .indexSignature parameters (← require "type" value)
  | .items [] => fail (.length 1 "struct variant Member::IndexSignature with 2 elements")
  | .items (parameters :: rest) => do
    let parameters ← plain (list TypeId.decode) parameters
    match rest with
    | [] => fail (.length 1 "struct variant Member::IndexSignature with 2 elements")
    | value :: rest =>
      let value ← plain TypeId.decode value
      if rest.isEmpty then return .indexSignature parameters value
      else fail (.length (rest.length + 2) "2 elements in sequence")

def memberKinds : List (String × (Payload → Except Problem Member)) := [
  ("property", memberSymbol .property "struct variant Member::Property with 1 element"),
  ("method", memberSymbol .method "struct variant Member::Method with 1 element"),
  ("indexSignature", memberSignature)]

def member : Decoder Member
  | 0, .obj _ _ => cut .malformed
  | 0, .arr _ _ => cut .malformed
  | room + 1, .obj fields fault => do
    let (build, rest) ← splitKind (Decoder.name memberKinds) room fields fault none []
    build (.fields rest)
  | _ + 1, .arr [] none => fail (.missing "kind")
  | _ + 1, .arr [] (some fault) => cut fault
  | room + 1, .arr (kind :: rest) fault => do
    let build ← within (.index 0) (Decoder.name memberKinds room kind)
    build (.items (← lift (Draft.toItems rest fault room)))
  | _, draft => mismatch "internally tagged enum Member" draft

def initializerForm : Record Initializer where
  title := "Initializer"
  blank := ⟨"", .literal⟩
  fields := [
    field "text" string fun value i => { i with text := value },
    field "kind" (variant initializerKinds) fun value i => { i with kind := value }]
  closed := false

def enumMemberForm : Record EnumMember where
  title := "EnumMember"
  blank := ⟨"", none, none⟩
  fields := [
    field "name" string fun value m => { m with name := value },
    field "constantValue" (optional json) fun value m => { m with constantValue := value },
    field "initializer" (optional initializerForm.decode)
      fun value m => { m with initializer := value }]
  closed := false

def declarationForm : Record Declaration where
  title := "Declaration"
  blank := .blank
  fields := [
    field "kind" (variant declarationKinds) fun value d => { d with kind := value },
    field "symbol" (optional SymbolId.decode) fun value d => { d with symbol := value },
    field "isAbstract" bool fun value d => { d with isAbstract := value },
    field "members" (list member) fun value d => { d with members := value },
    field "children" (list DeclarationId.decode) fun value d => { d with children := value },
    field "enumMembers" (list enumMemberForm.decode) fun value d => { d with enumMembers := value },
    field "initializer" (optional initializerForm.decode)
      fun value d => { d with initializer := value },
    field "typeReference" (optional SymbolId.decode)
      fun value d => { d with typeReference := value }]
  closed := false

/-! ## Symbols -/

def docTagForm : Record DocTag where
  title := "DocTag"
  blank := ⟨"", none⟩
  fields := [
    field "name" string fun value t => { t with name := value },
    field "text" (optional string) fun value t => { t with text := value }]
  closed := false

def symbolForm : Record Symbol where
  title := "Symbol"
  blank := .blank
  fields := [
    field "name" string fun value s => { s with name := value },
    field "qualifiedName" string fun value s => { s with qualifiedName := value },
    field "isOptional" bool fun value s => { s with isOptional := value },
    field "isMethod" bool fun value s => { s with isMethod := value },
    field "isAlias" bool fun value s => { s with isAlias := value },
    field "isTypeLiteral" bool fun value s => { s with isTypeLiteral := value },
    field "aliasTarget" (optional SymbolId.decode) fun value s => { s with aliasTarget := value },
    field "declarations" (list DeclarationId.decode)
      fun value s => { s with declarations := value },
    field "type" (optional TypeId.decode) fun value s => { s with type := value },
    field "documentation" (list string) fun value s => { s with documentation := value },
    field "tags" (list docTagForm.decode) fun value s => { s with tags := value }]
  closed := false

/-! ## Types -/

def objectForm : Record ObjectType where
  title := "ObjectType"
  blank := .blank
  fields := [
    field "anonymous" bool fun value t => { t with anonymous := value },
    field "properties" (list SymbolId.decode) fun value t => { t with properties := value },
    field "baseTypes" (list TypeId.decode) fun value t => { t with baseTypes := value },
    field "typeArguments" (list TypeId.decode) fun value t => { t with typeArguments := value },
    field "numberIndex" (optional TypeId.decode) fun value t => { t with numberIndex := value },
    field "stringIndex" (optional TypeId.decode) fun value t => { t with stringIndex := value }]
  closed := false

def typeKinds : List (String × (List (String × Json) → Except Problem TypeKind)) := [
  ("string", fun _ => .ok .string),
  ("number", fun _ => .ok .number),
  ("boolean", fun _ => .ok .boolean),
  ("null", fun _ => .ok .null),
  ("undefined", fun _ => .ok .undefined),
  ("any", fun _ => .ok .any),
  ("unknown", fun _ => .ok .unknown),
  ("void", fun _ => .ok .void),
  ("never", fun _ => .ok .never),
  ("bigint", fun _ => .ok .bigint),
  ("esSymbol", fun _ => .ok .esSymbol),
  ("nonPrimitive", fun _ => .ok .nonPrimitive),
  ("stringLiteral", fun fields => (required "value" string fields).map .stringLiteral),
  ("numberLiteral", fun fields => (required "value" binary64 fields).map .numberLiteral),
  ("booleanLiteral", fun fields => (required "value" bool fields).map .booleanLiteral),
  ("enumLiteral", fun fields => (required "value" json fields).map .enumLiteral),
  ("union", fun fields => (required "types" (list TypeId.decode) fields).map .union),
  ("intersection", fun fields => (required "types" (list TypeId.decode) fields).map .intersection),
  ("tuple", fun fields => (required "elements" (list TypeId.decode) fields).map .tuple),
  ("object", fun fields => (ofEntries objectForm fields).map .object),
  ("enum", fun _ => .ok .enum),
  ("typeParameter", fun _ => .ok .typeParameter)]

/-- The name and symbol of a type while its other fields are only kept. -/
structure TypeParts where
  name : Option String
  symbol : Option (Option SymbolId)
  rest : List (String × Json)

def typeParts (room : Nat) : List (Draft × Draft) → Option Cut → TypeParts →
    Except Problem TypeParts
  | [], none, parts => .ok { parts with rest := parts.rest.reverse }
  | [], some fault, _ => cut fault
  | (key, draft) :: fields, fault, parts => do
    let name ← lift key.toKey
    if name = "name" then
      if parts.name.isSome then fail (.repeated name)
      let value ← within (.key name) (string room draft)
      typeParts room fields fault { parts with name := some value }
    else if name = "symbol" then
      if parts.symbol.isSome then fail (.repeated name)
      let value ← within (.key name) (optional SymbolId.decode room draft)
      typeParts room fields fault { parts with symbol := some value }
    else
      let value ← json room draft
      typeParts room fields fault { parts with rest := (name, value) :: parts.rest }

def typeNode : Decoder TypeNode
  | 0, .obj _ _ => cut .malformed
  | room + 1, .obj fields fault => do
    let parts ← typeParts room fields fault ⟨none, none, []⟩
    let (build, rest) ←
      here (splitKind (nameOrPlace typeKinds) Draft.maxDepth (Draft.ofFields parts.rest) none none
        [])
    return ⟨parts.name.getD "", parts.symbol.join, ← build rest⟩
  | _, draft => mismatch "struct TypeNode" draft

/-! ## Graphs -/

def moduleForm : Record SourceModule where
  title := "SourceModule"
  blank := ⟨"", false, []⟩
  fields := [
    field "fileName" string fun value m => { m with fileName := value },
    field "isDefaultLib" bool fun value m => { m with isDefaultLib := value },
    field "statements" (list DeclarationId.decode) fun value m => { m with statements := value }]
  closed := false

def diagnosticForm : Record Diagnostic where
  title := "Diagnostic"
  blank := ⟨"", 0, 0, ""⟩
  fields := [
    field "file" string fun value d => { d with file := value },
    field "line" nat32 fun value d => { d with line := value },
    field "column" nat32 fun value d => { d with column := value },
    field "message" string fun value d => { d with message := value }]
  closed := false

/-- The one setting of the checker that matters here. -/
def checkerForm : Record Bool where
  title := "CompilerOptions"
  blank := false
  fields := [field "strictNullChecks" bool fun value _ => value]
  closed := false

def graphForm : Record Graph where
  title := "Program"
  blank := ∅
  fields := [
    field "modules" (list moduleForm.decode) fun value g => { g with modules := value },
    field "declarations" (dict DeclarationId.mk declarationForm.decode)
      fun value g => { g with declarations := value },
    field "symbols" (dict SymbolId.mk symbolForm.decode) fun value g => { g with symbols := value },
    field "types" (dict TypeId.mk typeNode) fun value g => { g with types := value },
    field "diagnostics" (list diagnosticForm.decode) fun value g => { g with diagnostics := value },
    field "compilerOptions" checkerForm.decode fun value g => { g with strictNullChecks := value }]
  closed := false

end Graph.Format

def Graph.decode : Decoder Graph := Graph.Format.graphForm.decode

/-! ## Writing -/

def Json.ofOption {α : Type} (write : α → Json) : Option α → Json
  | some value => write value
  | none => .null

def Json.ofList {α : Type} (write : α → Json) (values : List α) : Json := .arr (values.map write)

open Json (ofOption ofList)

def TypeId.toJson (id : TypeId) : Json := .str id.text

def SymbolId.toJson (id : SymbolId) : Json := .str id.text

def DeclarationId.toJson (id : DeclarationId) : Json := .str id.text

def DeclarationKind.text : DeclarationKind → String
  | .classType => "class"
  | .interface => "interface"
  | .enum => "enum"
  | .enumMember => "enumMember"
  | .typeAlias => "typeAlias"
  | .typeLiteral => "typeLiteral"
  | .functionType => "functionType"
  | .mappedType => "mappedType"
  | .module => "module"
  | .property => "property"
  | .method => "method"
  | .other => "other"

def InitializerKind.text : InitializerKind → String
  | .literal => "literal"
  | .template => "template"
  | .expression => "expression"

def Member.toJson : Member → Json
  | .property symbol => .obj [("kind", .str "property"), ("symbol", symbol.toJson)]
  | .method symbol => .obj [("kind", .str "method"), ("symbol", symbol.toJson)]
  | .indexSignature parameters value =>
    .obj [("kind", .str "indexSignature"), ("parameters", ofList TypeId.toJson parameters),
      ("type", value.toJson)]

def Initializer.toJson (i : Initializer) : Json :=
  .obj [("text", .str i.text), ("kind", .str i.kind.text)]

def EnumMember.toJson (m : EnumMember) : Json :=
  .obj [("name", .str m.name), ("constantValue", ofOption id m.constantValue),
    ("initializer", ofOption Initializer.toJson m.initializer)]

def Declaration.toJson (d : Declaration) : Json :=
  .obj [("kind", .str d.kind.text), ("symbol", ofOption SymbolId.toJson d.symbol),
    ("isAbstract", .bool d.isAbstract), ("members", ofList Member.toJson d.members),
    ("children", ofList DeclarationId.toJson d.children),
    ("enumMembers", ofList EnumMember.toJson d.enumMembers),
    ("initializer", ofOption Initializer.toJson d.initializer),
    ("typeReference", ofOption SymbolId.toJson d.typeReference)]

def DocTag.toJson (t : DocTag) : Json :=
  .obj [("name", .str t.name), ("text", ofOption Json.str t.text)]

def Symbol.toJson (s : Symbol) : Json :=
  .obj [("name", .str s.name), ("qualifiedName", .str s.qualifiedName),
    ("isOptional", .bool s.isOptional), ("isMethod", .bool s.isMethod),
    ("isAlias", .bool s.isAlias), ("isTypeLiteral", .bool s.isTypeLiteral),
    ("aliasTarget", ofOption SymbolId.toJson s.aliasTarget),
    ("declarations", ofList DeclarationId.toJson s.declarations),
    ("type", ofOption TypeId.toJson s.type), ("documentation", Json.strs s.documentation),
    ("tags", ofList DocTag.toJson s.tags)]

def ObjectType.fields (t : ObjectType) : List (String × Json) :=
  [("anonymous", .bool t.anonymous), ("properties", ofList SymbolId.toJson t.properties),
    ("baseTypes", ofList TypeId.toJson t.baseTypes),
    ("typeArguments", ofList TypeId.toJson t.typeArguments),
    ("numberIndex", ofOption TypeId.toJson t.numberIndex),
    ("stringIndex", ofOption TypeId.toJson t.stringIndex)]

namespace TypeKind

def text : TypeKind → String
  | .string => "string"
  | .number => "number"
  | .boolean => "boolean"
  | .null => "null"
  | .undefined => "undefined"
  | .any => "any"
  | .unknown => "unknown"
  | .void => "void"
  | .never => "never"
  | .bigint => "bigint"
  | .esSymbol => "esSymbol"
  | .nonPrimitive => "nonPrimitive"
  | .stringLiteral _ => "stringLiteral"
  | .numberLiteral _ => "numberLiteral"
  | .booleanLiteral _ => "booleanLiteral"
  | .enumLiteral _ => "enumLiteral"
  | .union _ => "union"
  | .intersection _ => "intersection"
  | .tuple _ => "tuple"
  | .object _ => "object"
  | .enum => "enum"
  | .typeParameter => "typeParameter"

/-- The fields that only types of this kind have. -/
def fields : TypeKind → List (String × Json)
  | .stringLiteral value => [("value", .str value)]
  | .numberLiteral value => [("value", .num (.real value))]
  | .booleanLiteral value => [("value", .bool value)]
  | .enumLiteral value => [("value", value)]
  | .union members => [("types", ofList TypeId.toJson members)]
  | .intersection members => [("types", ofList TypeId.toJson members)]
  | .tuple elements => [("elements", ofList TypeId.toJson elements)]
  | .object type => type.fields
  | _ => []

end TypeKind

def TypeNode.toJson (node : TypeNode) : Json :=
  .obj ([("name", .str node.name), ("symbol", ofOption SymbolId.toJson node.symbol),
    ("kind", .str node.kind.text)] ++ node.kind.fields)

def SourceModule.toJson (m : SourceModule) : Json :=
  .obj [("fileName", .str m.fileName), ("isDefaultLib", .bool m.isDefaultLib),
    ("statements", ofList DeclarationId.toJson m.statements)]

def Diagnostic.toJson (d : Diagnostic) : Json :=
  .obj [("file", .str d.file), ("line", Json.nat d.line), ("column", Json.nat d.column),
    ("message", .str d.message)]

def Json.ofEntries {κ α : Type} (key : κ → String) (write : α → Json) (d : Dict κ α) : Json :=
  .obj (d.entries.map fun entry => (key entry.1, write entry.2))

def Graph.toJson (g : Graph) : Json :=
  .obj [("modules", ofList SourceModule.toJson g.modules),
    ("declarations", Json.ofEntries DeclarationId.text Declaration.toJson g.declarations),
    ("symbols", Json.ofEntries SymbolId.text Symbol.toJson g.symbols),
    ("types", Json.ofEntries TypeId.text TypeNode.toJson g.types),
    ("diagnostics", ofList Diagnostic.toJson g.diagnostics),
    ("compilerOptions", .obj [("strictNullChecks", .bool g.strictNullChecks)])]

end TypeSchema
