import TypeSchema.Definition.EnumDeclaration
import TypeSchema.Schema.Properties

/-!
# Definitions of types

`typeDefinition` gives the definition of a type where it stands: a reference to the registry if the
type has a name to refer to, or else the definition itself.
-/

namespace TypeSchema.Schema

/-! ## Rendering a shape -/

def parts (env : Environment) (describe : Describe) (types : List TypeId) :
    Describing (List Json) :=
  Describing.forEach (fun type => Definition.toJson <$> describe type (Context.nested env.settings))
    types

def tupleDefinition (env : Environment) (describe : Describe) (elements : List TypeId)
    (d : Definition) : Describing Definition := do
  let items ← parts env describe elements
  let additional : Definition := Dict.empty.insert "anyOf" (.arr items)
  let d := (d.setType "array").insert "minItems" (Json.nat items.length)
  return (d.insert "items" (.arr items)).insert "additionalItems" additional.toJson

def mapDefinition (env : Environment) (describe : Describe) (key : IndexKey) (value : TypeId)
    (d : Definition) : Describing Definition := do
  let value ← describe value { Context.nested env.settings with unionKeyword := .anyOf }
  match key with
  | .string => return (d.setType "object").insert "additionalProperties" value.toJson
  | .number => return (d.setType "array").insert "items" value.toJson

def subtypes (env : Environment) (node : TypeNode) : Except Failure (List String) :=
  let name := QualifiedName.stripModulePath node.name
  match env.table.inheriting.find? name with
  | some names => .ok names
  | none => .error (.missingSubtypes name)

def subtypeDefinition (env : Environment) (describe : Describe) (name : String) :
    Describing Json :=
  match env.table.all.find? name with
  | some type => Definition.toJson <$> describe type (Context.nested env.settings)
  | none => throw (.unknownType name)

def abstractDefinition (env : Environment) (describe : Describe) (node : TypeNode)
    (d : Definition) : Describing Definition := do
  let names ← Run.ofExcept (subtypes env node)
  let branches ← Describing.forEach (subtypeDefinition env describe) names
  return d.insert "oneOf" (.arr branches)

def functionDefinition (env : Environment) (describe : Describe) (node : TypeNode)
    (d : Definition) : Describing Definition := do
  if env.settings.useTypeOfKeyword then return d.insert "typeof" (.str "function")
  else
    Describing.notice (.functionAsObject node.name)
    objectDefinition env describe [] d

def enumDefinition (declaration : Declaration) (d : Definition) : Describing Definition := do
  (EnumDeclaration.notices declaration.enumMembers).forM Describing.notice
  return EnumDeclaration.describe declaration.enumMembers d

def render (env : Environment) (describe : Describe) (node : TypeNode) (ctx : Context)
    (shape : Shape) (d : Definition) : Describing Definition :=
  match shape with
  | .union members => unionDefinition env describe members ctx d
  | .intersection members => do return d.insert "allOf" (.arr (← parts env describe members))
  | .tuple elements => tupleDefinition env describe elements d
  | .primitive tag => return d.setType tag
  | .literal value => return Definition.literal value d
  | .array element => do
    let items ← describe element (Context.nested env.settings)
    return (d.setType "array").insert "items" items.toJson
  | .date => return (d.setType "string").insert "format" (.str "date-time")
  | .nonPrimitive =>
    return ((d.setType "object").insert "properties" (.obj [])).insert "additionalProperties"
      (.bool true)
  | .unconstrained => return d
  | .unsupported => do
    Describing.notice (.unsupportedType node.name)
    return d
  | .enum declaration => enumDefinition declaration d
  | .emptyObject => return (d.setType "object").insert "properties" (.obj [])
  | .function => functionDefinition env describe node d
  | .map key value => mapDefinition env describe key value d
  | .abstract => abstractDefinition env describe node d
  | .object properties => objectDefinition env describe properties d

/-! ## References -/

def isStringLiteral (g : Graph) (id : TypeId) : Bool :=
  match g.types.find? id with
  | some ⟨_, _, .stringLiteral _⟩ => true
  | _ => false

def isStringEnum (g : Graph) (node : TypeNode) : Bool :=
  match node.kind with
  | .union members => members.all (isStringLiteral g)
  | _ => false

def isAnonymous (node : TypeNode) : Bool :=
  match node.kind with
  | .object type => type.anonymous
  | _ => false

def isRaw (symbol : Option Symbol) : Bool :=
  symbol.all fun s => decide (s.name ∈ Shape.rawNames)

def usesAlias (env : Environment) (node : TypeNode) (ctx : Context) : Bool :=
  ctx.asRef && ctx.reffed.isSome &&
    (env.settings.useTypeAliasRef || isStringEnum env.graph node)

/-- The name under which to refer to a type, or nothing if it is inlined. -/
def referenceName (env : Environment) (node : TypeNode) (symbol : Option Symbol) (ctx : Context) :
    Except Failure (Option String) :=
  if usesAlias env node ctx then
    match ctx.reffed with
    | some reffed => do
      return some (QualifiedName.stripModulePath (← env.graph.symbol reffed).qualifiedName)
    | none => return none
  else if ctx.asRef && !(isRaw symbol || isAnonymous node) then
    return some (QualifiedName.stripModulePath node.name)
  else return none

/-! ## Annotations -/

def annotationsOf (env : Environment) (id : Option SymbolId) : Except Failure Annotations :=
  match id with
  | none => .ok Annotations.empty
  | some id => do
    return Annotations.ofSymbol env.settings.validationKeywords (← env.graph.symbol id)

/-- The annotations of the written alias, of the property, and of the type itself. -/
structure Remarks where
  reffed : Annotations
  property : Annotations
  own : Annotations

namespace Remarks

def of (env : Environment) (node : TypeNode) (ctx : Context) : Except Failure Remarks := do
  let reffed ← annotationsOf env ctx.reffed
  let property ← annotationsOf env ctx.property
  let own ← annotationsOf env node.symbol
  return ⟨reffed, property, own⟩

def isNullable (remarks : Remarks) : Bool :=
  remarks.reffed.isNullable || remarks.property.isNullable || remarks.own.isNullable

/-- What is annotated on the type; annotations of a property belong there if it is inlined. -/
def onType (remarks : Remarks) (inlined : Bool) : Definition :=
  let d := remarks.reffed.applyTo Dict.empty
  let d := if inlined then remarks.property.applyTo d else d
  remarks.own.applyTo d

def onReference (remarks : Remarks) (name : String) : Definition :=
  remarks.property.applyTo (Definition.reference name)

def widen (remarks : Remarks) (d : Definition) : Definition :=
  if remarks.isNullable then d.makeNullable else d

end Remarks

/-! ## Types -/

/-- Completes what is annotated on a type by its shape; an annotated type needs no shape. -/
def complete (env : Environment) (describe : Describe) (node : TypeNode) (ctx : Context)
    (d : Definition) : Describing Definition := do
  if d.hasType then return d
  else
    let shape ← Run.ofExcept (Shape.ofNode env.graph node ctx.reffed)
    render env describe node ctx shape d

/-- A registered definition bears its name, if titles are wanted. -/
def titled (settings : Settings) (name : String) (d : Definition) : Definition :=
  d.insertIf (settings.useTitle && !name.isEmpty) "title" (.str name)

def registerType (env : Environment) (describe : Describe) (type : TypeId) (node : TypeNode)
    (ctx : Context) (name : String) (d : Definition) : Describing Unit := do
  if ← Describing.isRegistered name then return
  else
    Describing.reserve name type ctx
    let d ← complete env describe node ctx (titled env.settings name d)
    Describing.fill name type d

def describeType (env : Environment) (describe : Describe) (type : TypeId) (ctx : Context) :
    Describing Definition := do
  let node ← Run.ofExcept (env.graph.typeNode type)
  let symbol ← Run.ofExcept (Shape.symbolOf env.graph node.symbol)
  let name ← Run.ofExcept (referenceName env node symbol ctx)
  let remarks ← Run.ofExcept (Remarks.of env node ctx)
  let d ← match name with
    | some name => do
      registerType env describe type node ctx name (remarks.onType false)
      Describing.refer name type ctx
      pure (remarks.onReference name)
    | none => complete env describe node ctx (remarks.onType true)
  return remarks.widen d

def maxDepth : Nat := 200

/-- The definition of a type, described to a limited depth. -/
def typeDefinition (env : Environment) : Nat → Describe
  | 0, type, _ => do
    throw (.recursionLimit (← Run.ofExcept (env.graph.typeNode type)).name)
  | depth + 1, type, ctx => describeType env (typeDefinition env depth) type ctx

def define (env : Environment) : Describe := typeDefinition env maxDepth

/-- Definitions one after the other with one registry; a failure does not stop those that follow. -/
def defineAll (env : Environment) :
    List (TypeId × Context) → Progress → List (Except Failure Definition) × Progress
  | [], p => ([], p)
  | (type, ctx) :: rest, p =>
    let (outcome, p) := (define env type ctx).on p
    let (outcomes, p) := defineAll env rest p
    (outcome :: outcomes, p)

theorem defineAll_cons (env : Environment) (type : TypeId) (ctx : Context)
    (rest : List (TypeId × Context)) (p : Progress) :
    defineAll env ((type, ctx) :: rest) p =
      (((define env type ctx).on p).1 :: (defineAll env rest ((define env type ctx).on p).2).1,
        (defineAll env rest ((define env type ctx).on p).2).2) := rfl

end TypeSchema.Schema
