import TypeSchema.Json.Basic

/-!
# Drafts

What a text says on the way to a JSON value, faults included.  A reader of a text meets its faults
in the order of the text, and some of them only if it looks at the value: a number out of range or
an unpaired surrogate does not stop a reader that skips the value.  A draft therefore keeps the
fault at its place, and every reader takes the draft in the order of the text and so finds the first
problem.
-/

namespace TypeSchema

/-- How a text fails: it ends too early, or it goes on wrongly. -/
inductive Cut where
  | ended
  | malformed
  deriving DecidableEq

/--
A faulty leaf says what a reader meets there and what one that skips it meets, if anything; when the
skipping reader meets a fault, the text is lost from there on.
-/
inductive Draft where
  | null
  | bool (value : Bool)
  | num (value : Number)
  | str (value : String)
  /-- The text ended where a value should begin. -/
  | unset
  /-- A text in quotation marks that cannot be read. -/
  | badText (read : Cut) (skip : Option Cut)
  /-- Any other value that cannot be read. -/
  | badWord (read : Cut) (skip : Option Cut)
  /-- The cut stands where the next item or the closing bracket should. -/
  | arr (items : List Draft) (cut : Option Cut)
  /-- A key is a draft too, since anything may stand in its place. -/
  | obj (fields : List (Draft × Draft)) (cut : Option Cut)

namespace Draft

instance : Inhabited Draft := ⟨.null⟩

/-- Containers may nest this deep, where values are read and not skipped. -/
def maxDepth : Nat := 127

/-- Reads a key: only a text can be one. -/
def toKey : Draft → Except Cut String
  | .str name => .ok name
  | .unset => .error .ended
  | .badText fault _ => .error fault
  | _ => .error .malformed

/-! ## Skipping -/

def skipKey : Draft → Option Cut
  | .unset => some .ended
  | .badText _ fault => fault
  | _ => none

mutual

def skip : Draft → Option Cut
  | .unset => some .ended
  | .badText _ fault => fault
  | .badWord _ fault => fault
  | .arr items cut => skipItems items cut
  | .obj fields cut => skipFields fields cut
  | _ => none
termination_by structural draft => draft

def skipItems : List Draft → Option Cut → Option Cut
  | [], cut => cut
  | item :: rest, cut =>
    match skip item with
    | some fault => some fault
    | none => skipItems rest cut
termination_by structural items => items

def skipFields : List (Draft × Draft) → Option Cut → Option Cut
  | [], cut => cut
  | (key, value) :: rest, cut =>
    match (skipKey key).or (skip value) with
    | some fault => some fault
    | none => skipFields rest cut
termination_by structural fields => fields

end

/-! ## Reading -/

mutual

/-- The value of a draft with at most `room` containers inside each other. -/
def toJson : Draft → Nat → Except Cut Json
  | .null, _ => .ok .null
  | .bool value, _ => .ok (.bool value)
  | .num value, _ => .ok (.num value)
  | .str value, _ => .ok (.str value)
  | .unset, _ => .error .ended
  | .badText fault _, _ => .error fault
  | .badWord fault _, _ => .error fault
  | .arr _ _, 0 => .error .malformed
  | .arr items cut, room + 1 => (toItems items cut room).map .arr
  | .obj _ _, 0 => .error .malformed
  | .obj fields cut, room + 1 => (toFields fields cut room []).map .obj
termination_by structural draft => draft

def toItems : List Draft → Option Cut → Nat → Except Cut (List Json)
  | [], none, _ => .ok []
  | [], some fault, _ => .error fault
  | item :: rest, cut, room => do
    let value ← toJson item room
    let values ← toItems rest cut room
    return value :: values
termination_by structural items => items

def toFields : List (Draft × Draft) → Option Cut → Nat → Entries String Json →
    Except Cut (Entries String Json)
  | [], none, _, read => .ok read
  | [], some fault, _, _ => .error fault
  | (key, draft) :: rest, cut, room, read => do
    let key ← toKey key
    let value ← toJson draft room
    toFields rest cut room (Entries.insert key value read)
termination_by structural fields => fields

end

/-! ## Drafts without faults -/

mutual

def ofJson : Json → Draft
  | .null => .null
  | .bool value => .bool value
  | .num value => .num value
  | .str value => .str value
  | .arr items => .arr (ofItems items) none
  | .obj fields => .obj (ofFields fields) none
termination_by structural value => value

def ofItems : List Json → List Draft
  | [] => []
  | item :: rest => ofJson item :: ofItems rest
termination_by structural items => items

def ofFields : List (String × Json) → List (Draft × Draft)
  | [] => []
  | (key, value) :: rest => (.str key, ofJson value) :: ofFields rest
termination_by structural fields => fields

end

mutual

theorem skip_ofJson : ∀ value : Json, skip (ofJson value) = none
  | .null => rfl
  | .bool _ => rfl
  | .num _ => rfl
  | .str _ => rfl
  | .arr items => skipItems_ofItems items
  | .obj fields => skipFields_ofFields fields

theorem skipItems_ofItems : ∀ items : List Json, skipItems (ofItems items) none = none
  | [] => rfl
  | item :: rest => by
    simp only [ofItems, skipItems, skip_ofJson item]
    exact skipItems_ofItems rest

theorem skipFields_ofFields :
    ∀ fields : List (String × Json), skipFields (ofFields fields) none = none
  | [] => rfl
  | (_, value) :: rest => by
    simp only [ofFields, skipFields, skipKey, skip_ofJson value, Option.or]
    exact skipFields_ofFields rest

end

end Draft

end TypeSchema
