import TypeSchema.Annotation
import TypeSchema.Notice
import TypeSchema.Settings
import TypeSchema.SymbolTable

/-!
# Describing types

What describing a type depends on, what it changes, and where the type stands.

The registry holds the definitions of named types.  A name is reserved in it before its type is
described, so a type that contains itself meets its own name and refers to it.
-/

namespace TypeSchema

structure Environment where
  graph : Graph
  settings : Settings
  table : SymbolTable

inductive UnionKeyword where
  | oneOf
  | anyOf
  deriving DecidableEq

def UnionKeyword.text : UnionKeyword → String
  | .oneOf => "oneOf"
  | .anyOf => "anyOf"

structure Context where
  /-- Refer to the type if that is possible. -/
  asRef : Bool
  unionKeyword : UnionKeyword
  /-- The property whose type it is. -/
  property : Option SymbolId
  /-- The symbol that the property's written type names. -/
  reffed : Option SymbolId
  deriving DecidableEq

namespace Context

def standing (asRef : Bool) : Context := ⟨asRef, .oneOf, none, none⟩

/-- The place of a part that is no property. -/
def nested (settings : Settings) : Context := standing settings.useRef

end Context

inductive Event where
  /-- The name was taken for a type that stands in a place. -/
  | reserved (name : String) (type : TypeId) (ctx : Context)
  /-- The definition of the type was stored under the name. -/
  | filled (name : String) (type : TypeId)
  /-- The type was referred to by the name. -/
  | referred (name : String) (type : TypeId) (ctx : Context)
  deriving DecidableEq

structure Progress where
  registry : Dict String Definition
  /-- Properties whose type is a union with undefined. -/
  mayBeAbsent : List SymbolId
  notices : List Notice
  /-- What happened to the registry, latest first; nothing depends on it. -/
  history : List Event

namespace Progress

def initial : Progress := ⟨∅, [], [], []⟩

instance : Inhabited Progress := ⟨initial⟩

def notice (p : Progress) (n : Notice) : Progress := { p with notices := p.notices ++ [n] }

def markAbsent (p : Progress) (property : SymbolId) : Progress :=
  if property ∈ p.mayBeAbsent then p else { p with mayBeAbsent := p.mayBeAbsent ++ [property] }

def reserve (p : Progress) (name : String) (type : TypeId) (ctx : Context) : Progress :=
  { p with
    registry := p.registry.insert name Dict.empty
    history := .reserved name type ctx :: p.history }

def fill (p : Progress) (name : String) (type : TypeId) (d : Definition) : Progress :=
  { p with
    registry := p.registry.insert name d
    history := .filled name type :: p.history }

def refer (p : Progress) (name : String) (type : TypeId) (ctx : Context) : Progress :=
  { p with history := .referred name type ctx :: p.history }

section

variable (p : Progress) (name : String) (type : TypeId) (ctx : Context) (d : Definition)

@[simp] theorem registry_reserve :
    (p.reserve name type ctx).registry = p.registry.insert name Dict.empty := rfl

@[simp] theorem history_reserve :
    (p.reserve name type ctx).history = .reserved name type ctx :: p.history := rfl

@[simp] theorem registry_fill :
    (p.fill name type d).registry = p.registry.insert name d := rfl

@[simp] theorem history_fill :
    (p.fill name type d).history = .filled name type :: p.history := rfl

@[simp] theorem registry_refer : (p.refer name type ctx).registry = p.registry := rfl

@[simp] theorem history_refer :
    (p.refer name type ctx).history = .referred name type ctx :: p.history := rfl

end

end Progress

abbrev Describing := Run Progress

namespace Describing

def notice (n : Notice) : Describing Unit := modify (·.notice n)

def reserve (name : String) (type : TypeId) (ctx : Context) : Describing Unit :=
  modify (·.reserve name type ctx)

def fill (name : String) (type : TypeId) (d : Definition) : Describing Unit :=
  modify (·.fill name type d)

def refer (name : String) (type : TypeId) (ctx : Context) : Describing Unit :=
  modify (·.refer name type ctx)

def isRegistered (name : String) : Describing Bool :=
  return (← get).registry.contains name

def markAbsent (property : SymbolId) : Describing Unit := modify (·.markAbsent property)

def isMarkedAbsent (property : SymbolId) : Describing Bool :=
  return decide (property ∈ (← get).mayBeAbsent)

def forEach {α β : Type} (step : α → Describing β) : List α → Describing (List β)
  | [] => return []
  | a :: rest => do
    let b ← step a
    let bs ← forEach step rest
    return b :: bs

end Describing

end TypeSchema
