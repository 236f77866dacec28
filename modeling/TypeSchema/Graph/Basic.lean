import TypeSchema.Dict
import TypeSchema.Failure
import TypeSchema.Json.Basic

/-!
# Program graphs

The declarations, symbols and types of a checked program.  They point at each other by ids, and an
id may point nowhere: look-ups say so.
-/

namespace TypeSchema

structure TypeId where
  text : String
  deriving DecidableEq

structure SymbolId where
  text : String
  deriving DecidableEq

structure DeclarationId where
  text : String
  deriving DecidableEq

/-! ## Declarations -/

inductive DeclarationKind where
  | classType
  | interface
  | enum
  | enumMember
  | typeAlias
  | typeLiteral
  | functionType
  | mappedType
  | module
  | property
  | method
  | other
  deriving DecidableEq

def DeclarationKind.namesType : DeclarationKind → Bool
  | .classType | .interface | .enum | .typeAlias => true
  | _ => false

inductive Member where
  | property (symbol : SymbolId)
  | method (symbol : SymbolId)
  | indexSignature (parameters : List TypeId) (value : TypeId)
  deriving DecidableEq

inductive InitializerKind where
  | literal
  | template
  | expression
  deriving DecidableEq

structure Initializer where
  text : String
  kind : InitializerKind
  deriving DecidableEq

structure EnumMember where
  name : String
  /-- The value, where the checker could compute it. -/
  constantValue : Option Json
  initializer : Option Initializer

structure Declaration where
  kind : DeclarationKind
  symbol : Option SymbolId
  isAbstract : Bool
  members : List Member
  children : List DeclarationId
  enumMembers : List EnumMember
  initializer : Option Initializer
  /-- The symbol that the written type names. -/
  typeReference : Option SymbolId

namespace Declaration

def blank : Declaration := ⟨.other, none, false, [], [], [], none, none⟩

end Declaration

/-! ## Symbols -/

structure DocTag where
  name : String
  text : Option String
  deriving DecidableEq

structure Symbol where
  name : String
  /-- The full name, with a quoted module path in front where there is one. -/
  qualifiedName : String
  isOptional : Bool
  isMethod : Bool
  isAlias : Bool
  isTypeLiteral : Bool
  aliasTarget : Option SymbolId
  declarations : List DeclarationId
  type : Option TypeId
  documentation : List String
  tags : List DocTag
  deriving DecidableEq

namespace Symbol

def blank : Symbol := ⟨"", "", false, false, false, false, none, [], none, [], []⟩

end Symbol

/-! ## Types -/

structure ObjectType where
  anonymous : Bool
  /-- All properties, inherited ones included. -/
  properties : List SymbolId
  baseTypes : List TypeId
  typeArguments : List TypeId
  numberIndex : Option TypeId
  stringIndex : Option TypeId
  deriving DecidableEq

namespace ObjectType

def blank : ObjectType := ⟨false, [], [], [], none, none⟩

end ObjectType

inductive TypeKind where
  | string
  | number
  | boolean
  | null
  | undefined
  | any
  | unknown
  | void
  | never
  | bigint
  | esSymbol
  /-- The type of everything that is not primitive. -/
  | nonPrimitive
  | stringLiteral (value : String)
  | numberLiteral (value : Binary64)
  | booleanLiteral (value : Bool)
  | enumLiteral (value : Json)
  | union (members : List TypeId)
  | intersection (members : List TypeId)
  | tuple (elements : List TypeId)
  | object (type : ObjectType)
  | enum
  | typeParameter

structure TypeNode where
  name : String
  symbol : Option SymbolId
  kind : TypeKind

/-! ## Graphs -/

structure SourceModule where
  fileName : String
  isDefaultLib : Bool
  statements : List DeclarationId
  deriving DecidableEq

structure Diagnostic where
  file : String
  line : Nat
  column : Nat
  message : String
  deriving DecidableEq

def Diagnostic.text (d : Diagnostic) : String :=
  d.file ++ ":" ++ toString d.line ++ ":" ++ toString d.column ++ ": " ++ d.message

structure Graph where
  modules : List SourceModule
  declarations : Dict DeclarationId Declaration
  symbols : Dict SymbolId Symbol
  types : Dict TypeId TypeNode
  diagnostics : List Diagnostic
  strictNullChecks : Bool

namespace Graph

def empty : Graph := ⟨[], ∅, ∅, ∅, [], false⟩

instance : EmptyCollection Graph := ⟨empty⟩

instance : Inhabited Graph := ⟨empty⟩

/-- Entries of the later graph win where ids clash. -/
def merge (g later : Graph) : Graph where
  modules := g.modules ++ later.modules
  declarations := g.declarations.merge later.declarations
  symbols := g.symbols.merge later.symbols
  types := g.types.merge later.types
  diagnostics := g.diagnostics ++ later.diagnostics
  strictNullChecks := g.strictNullChecks || later.strictNullChecks

def mergeAll (graphs : List Graph) : Graph := graphs.foldl merge ∅

/-! ## Look-ups -/

def typeNode (g : Graph) (id : TypeId) : Except Failure TypeNode :=
  match g.types.find? id with
  | some node => .ok node
  | none => .error (.danglingType id.text)

def symbol (g : Graph) (id : SymbolId) : Except Failure Symbol :=
  match g.symbols.find? id with
  | some symbol => .ok symbol
  | none => .error (.danglingSymbol id.text)

theorem mem_symbols {g : Graph} {id : SymbolId} {s : Symbol} (h : g.symbol id = .ok s) :
    (id, s) ∈ g.symbols.entries := by
  unfold Graph.symbol at h
  split at h
  · rename_i hfind
    cases h
    exact Dict.mem_entries_iff.2 hfind
  · cases h

theorem mem_types {g : Graph} {id : TypeId} {node : TypeNode} (h : g.typeNode id = .ok node) :
    (id, node) ∈ g.types.entries := by
  unfold Graph.typeNode at h
  split at h
  · rename_i hfind
    cases h
    exact Dict.mem_entries_iff.2 hfind
  · cases h

def declaration (g : Graph) (id : DeclarationId) : Except Failure Declaration :=
  match g.declarations.find? id with
  | some declaration => .ok declaration
  | none => .error (.danglingDeclaration id.text)

def firstDeclaration (g : Graph) (id : SymbolId) : Except Failure (Option Declaration) := do
  match (← g.symbol id).declarations with
  | [] => return none
  | first :: _ => return some (← g.declaration first)

/-- Follows alias targets for as long as there are any, but for no more hops than given. -/
def followAlias (g : Graph) : Nat → SymbolId → Except Failure SymbolId
  | 0, id => .ok id
  | hops + 1, id => do
    match (← g.symbol id).aliasTarget with
    | none => return id
    | some target => g.followAlias hops target

def maxAliasHops : Nat := 65

def resolveAlias (g : Graph) (id : SymbolId) : Except Failure SymbolId :=
  g.followAlias maxAliasHops id

end Graph

end TypeSchema
