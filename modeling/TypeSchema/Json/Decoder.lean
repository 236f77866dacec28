import TypeSchema.Decimal.Digits
import TypeSchema.Json.Draft
import TypeSchema.Json.Printer
import TypeSchema.Text.Quoted

/-!
# Decoding drafts

A decoder takes a draft, in the order of its text, to a value of a domain type, or to the first
problem: a fault of the text, or a value of the wrong form together with the path to it.  Its first
argument counts the containers that may still nest.

Records are decoded from objects, where each known field may stand once and in any order, and from
lists, which give the fields in their declared order.
-/

namespace TypeSchema

/-! ## Paths and problems -/

inductive Step where
  | key (name : String)
  | index (position : Nat)

abbrev Path := List Step

namespace Path

def textFrom : (first : Bool) → Path → String
  | _, [] => ""
  | first, .key name :: rest => (if first then "" else ".") ++ name ++ textFrom false rest
  | _, .index position :: rest => "[" ++ toString position ++ "]" ++ textFrom false rest

/-- Names are joined by points as they are; a lone point is the root. -/
def text : Path → String
  | [] => "."
  | path => textFrom true path

end Path

/-- A value as messages describe it. -/
inductive Found where
  | null
  | bool (value : Bool)
  | num (value : Number)
  | str (value : String)
  | sequence
  | map

namespace Found

def text : Found → String
  | .null => "null"
  | .bool value => "boolean `" ++ String.ofList (Json.printBool value) ++ "`"
  | .num (.int i) => "integer `" ++ String.ofList (Digits.writeInt i) ++ "`"
  | .num (.real x) => "floating point `" ++ String.ofList (Json.printNumber (.real x)) ++ "`"
  | .str value => "string " ++ Text.quoted value
  | .sequence => "sequence"
  | .map => "map"

end Found

/-- Why a well-written value is not of the form wanted. -/
inductive Mismatch where
  | type (found : Found) (wanted : String)
  | value (found : Found) (wanted : String)
  | length (count : Nat) (wanted : String)
  | missing (field : String)
  | repeated (field : String)
  | unknownField (field : String) (known : List String)
  | unknownVariant (name : String) (known : List String)

namespace Mismatch

def ticked (name : String) : String := "`" ++ name ++ "`"

def oneOf (names : List String) : String :=
  match names.map ticked with
  | [] => "there are none"
  | [name] => "expected " ++ name
  | [first, second] => "expected " ++ first ++ " or " ++ second
  | names => "expected one of " ++ ", ".intercalate names

def message : Mismatch → String
  | .type found wanted => "invalid type: " ++ found.text ++ ", expected " ++ wanted
  | .value found wanted => "invalid value: " ++ found.text ++ ", expected " ++ wanted
  | .length count wanted => "invalid length " ++ toString count ++ ", expected " ++ wanted
  | .missing field => "missing field " ++ ticked field
  | .repeated field => "duplicate field " ++ ticked field
  | .unknownField field known => "unknown field " ++ ticked field ++ ", " ++ oneOf known
  | .unknownVariant name known => "unknown variant " ++ ticked name ++ ", " ++ oneOf known

end Mismatch

inductive Problem where
  | cut (fault : Cut)
  | data (path : Path) (reason : Mismatch)

abbrev Decoder (α : Type) := Nat → Draft → Except Problem α

namespace Decoder

variable {α ρ : Type}

def fail (reason : Mismatch) : Except Problem α := .error (.data [] reason)

def cut (fault : Cut) : Except Problem α := .error (.cut fault)

/-- Puts a problem of a part where the part stands. -/
def within (step : Step) (outcome : Except Problem α) : Except Problem α :=
  match outcome with
  | .error (.data path reason) => .error (.data (step :: path) reason)
  | outcome => outcome

/-- Reports a problem of a part at the whole. -/
def here (outcome : Except Problem α) : Except Problem α :=
  match outcome with
  | .error (.data _ reason) => .error (.data [] reason)
  | outcome => outcome

def lift (outcome : Except Cut α) : Except Problem α :=
  match outcome with
  | .ok value => .ok value
  | .error fault => .error (.cut fault)

/-- A value of another kind than the one wanted; containers are not looked into. -/
def mismatch (wanted : String) : Draft → Except Problem α
  | .null => fail (.type .null wanted)
  | .bool value => fail (.type (.bool value) wanted)
  | .num value => fail (.type (.num value) wanted)
  | .str value => fail (.type (.str value) wanted)
  | .unset => cut .ended
  | .badText fault _ => cut fault
  | .badWord fault _ => cut fault
  | .arr _ _ => fail (.type .sequence wanted)
  | .obj _ _ => fail (.type .map wanted)

/-! ## Plain values -/

def json : Decoder Json := fun room draft => lift (draft.toJson room)

def string : Decoder String
  | _, .str value => .ok value
  | _, draft => mismatch "a string" draft

/-- A file path is a text, but messages name it otherwise. -/
def filePath : Decoder String
  | _, .str value => .ok value
  | _, draft => mismatch "path string" draft

def bool : Decoder Bool
  | _, .bool value => .ok value
  | _, draft => mismatch "a boolean" draft

/-- Naturals of 32 bits. -/
def nat32 : Decoder Nat
  | _, .num (.int i) =>
    if 0 ≤ i ∧ i.toNat < Nat.pow 2 32 then .ok i.toNat else fail (.value (.num (.int i)) "u32")
  | _, draft => mismatch "u32" draft

def binary64 : Decoder Binary64
  | _, .num number =>
    match number.toBinary64? with
    | some x => .ok x
    | none => cut .malformed
  | _, draft => mismatch "f64" draft

def optional (decode : Decoder α) : Decoder (Option α)
  | _, .null => .ok none
  | room, draft => (decode room draft).map some

/-! ## Collections -/

def items (decode : Decoder α) (room : Nat) : Nat → List Draft → Option Cut →
    Except Problem (List α)
  | _, [], none => .ok []
  | _, [], some fault => cut fault
  | position, draft :: rest, fault => do
    let value ← within (.index position) (decode room draft)
    let values ← items decode room (position + 1) rest fault
    return value :: values

def list (decode : Decoder α) : Decoder (List α)
  | 0, .arr _ _ => cut .malformed
  | room + 1, .arr drafts fault => items decode room 0 drafts fault
  | _, draft => mismatch "a sequence" draft

def entries {κ : Type} [DecidableEq κ] (key : String → κ) (decode : Decoder α) (room : Nat) :
    List (Draft × Draft) → Option Cut → Dict κ α → Except Problem (Dict κ α)
  | [], none, read => .ok read
  | [], some fault, _ => cut fault
  | (name, draft) :: rest, fault, read => do
    let name ← lift name.toKey
    let value ← within (.key name) (decode room draft)
    entries key decode room rest fault (read.insert (key name) value)

def dict {κ : Type} [DecidableEq κ] (key : String → κ) (decode : Decoder α) : Decoder (Dict κ α)
  | 0, .obj _ _ => cut .malformed
  | room + 1, .obj fields fault => entries key decode room fields fault ∅
  | _, draft => mismatch "a map" draft

/-! ## Names of alternatives -/

def alternative (known : List (String × α)) (name : String) : Except Problem α :=
  match Entries.find? name known with
  | some value => .ok value
  | none => fail (.unknownVariant name (Entries.keys known))

def name (known : List (String × α)) : Decoder α
  | _, .str name => alternative known name
  | _, draft => mismatch "variant identifier" draft

/-- One of several names, or its place among them. -/
def nameOrPlace (known : List (String × α)) : Decoder α
  | room, .num (.int i) =>
    if i < 0 then name known room (.num (.int i))
    else
      match known[i.toNat]? with
      | some alternative => .ok alternative.2
      | none =>
        fail (.value (.num (.int i)) ("variant index 0 <= i < " ++ toString known.length))
  | room, draft => name known room draft

/-- One of several names, written as a text or as the only key of an object that holds null. -/
def variant (known : List (String × α)) : Decoder α
  | _, .str name => alternative known name
  | _, .unset => cut .ended
  | _, .badText fault _ => cut fault
  | 0, .obj _ _ => cut .malformed
  | _ + 1, .obj [] fault => cut (fault.getD .malformed)
  | _ + 1, .obj ((.str name, content) :: rest) fault => do
    let value ← alternative known name
    match content with
    | .null => pure ()
    | content => within (.key name) (mismatch "unit" content)
    if rest.isEmpty then
      match fault with
      | none => return value
      | some fault => cut fault
    else cut .malformed
  | _ + 1, .obj ((key, _) :: _) _ => mismatch "variant identifier" key
  | _, _ => cut .malformed

/-! ## Records -/

structure Field (ρ : Type) where
  name : String
  decode : Decoder (ρ → ρ)

def field (name : String) (decode : Decoder α) (store : α → ρ → ρ) : Field ρ :=
  ⟨name, fun room draft => (decode room draft).map store⟩

/-- Fields that are not written keep the values of the blank record. -/
structure Record (ρ : Type) where
  title : String
  blank : ρ
  fields : List (Field ρ)
  /-- Unknown fields are refused instead of skipped. -/
  closed : Bool

namespace Record

def ofFields (form : Record ρ) (room : Nat) : List (Draft × Draft) → Option Cut → List String →
    ρ → Except Problem ρ
  | [], none, _, record => .ok record
  | [], some fault, _, _ => cut fault
  | (key, draft) :: rest, fault, seen, record => do
    let name ← lift key.toKey
    match form.fields.find? (·.name == name) with
    | none =>
      if form.closed then
        within (.key name) (fail (.unknownField name (form.fields.map (·.name))))
      match draft.skip with
      | none => ofFields form room rest fault seen record
      | some lost => cut lost
    | some field =>
      if name ∈ seen then fail (.repeated name)
      let store ← within (.key name) (field.decode room draft)
      ofFields form room rest fault (name :: seen) (store record)

def ofItems (room : Nat) : List (Field ρ) → Nat → List Draft → Option Cut → ρ → Except Problem ρ
  | [], _, [], none, record => .ok record
  | [], _, _ :: _, _, _ => cut .malformed
  | _, _, [], some fault, _ => cut fault
  | _ :: _, _, [], none, record => .ok record
  | field :: fields, position, draft :: rest, fault, record => do
    let store ← within (.index position) (field.decode room draft)
    ofItems room fields (position + 1) rest fault (store record)

def decode (form : Record ρ) : Decoder ρ
  | 0, .obj _ _ => cut .malformed
  | 0, .arr _ _ => cut .malformed
  | room + 1, .obj fields fault => form.ofFields room fields fault [] form.blank
  | room + 1, .arr drafts fault => ofItems room form.fields 0 drafts fault form.blank
  | _, draft => mismatch ("struct " ++ form.title) draft

end Record

/-! ## Fields read ahead of their kind -/

/--
Which alternative an object is may stand after its other fields.  These are then read as plain
values first, and decoded once the kind is known; problems among them are reported at the object.
-/
def ofEntries (form : Record ρ) (fields : List (String × Json)) : Except Problem ρ :=
  here (form.ofFields Draft.maxDepth (Draft.ofFields fields) none [] form.blank)

def require (field : String) : Option α → Except Problem α
  | some value => .ok value
  | none => fail (.missing field)

end Decoder

end TypeSchema
