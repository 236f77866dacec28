import TypeSchema.Decimal.Binary64
import TypeSchema.Dict

/-!
# JSON values

Integers and other numbers are told apart, and the entries of an object keep their order.  Equality
of values (`Json.same`) ignores that order and takes the two zeros for one, but never an integer for
another kind of number.
-/

namespace TypeSchema

inductive Number where
  | int (value : Int)
  | real (value : Binary64)
  deriving DecidableEq

namespace Number

def same : Number → Number → Bool
  | .int a, .int b => a == b
  | .real a, .real b => a.same b
  | _, _ => false

def toBinary64? : Number → Option Binary64
  | .int i => Binary64.ofInt i
  | .real x => some x

theorem same_refl (n : Number) : n.same n = true := by
  cases n <;> simp [same, Binary64.same_refl]

end Number

inductive Json where
  | null
  | bool (value : Bool)
  | num (value : Number)
  | str (value : String)
  | arr (items : List Json)
  | obj (fields : List (String × Json))

namespace Json

instance : Inhabited Json := ⟨.null⟩

def int (value : Int) : Json := .num (.int value)

def nat (value : Nat) : Json := .int value

def strs (values : List String) : Json := .arr (values.map .str)

def ofDict (fields : Dict String Json) : Json := .obj fields.entries

def isBool : Json → Bool
  | .bool _ => true
  | _ => false

def isArr : Json → Bool
  | .arr _ => true
  | _ => false

def str? : Json → Option String
  | .str value => some value
  | _ => none

/-- The value of a field, where the value is an object that has it. -/
def field? (name : String) : Json → Option Json
  | .obj fields => Entries.find? name fields
  | _ => none

/-! ## Equality of values -/

mutual

def same : Json → Json → Bool
  | .null, .null => true
  | .bool a, .bool b => a == b
  | .num a, .num b => a.same b
  | .str a, .str b => a == b
  | .arr a, .arr b => sameItems a b
  | .obj a, .obj b => a.length == b.length && sameFields a b
  | _, _ => false
termination_by structural value => value

def sameItems : List Json → List Json → Bool
  | [], [] => true
  | a :: as, b :: bs => same a b && sameItems as bs
  | _, _ => false
termination_by structural items => items

/-- Every field of the first list stands in the second with an equal value. -/
def sameFields : List (String × Json) → List (String × Json) → Bool
  | [], _ => true
  | (key, a) :: rest, fields =>
    (match Entries.find? key fields with
      | some b => same a b
      | none => false) && sameFields rest fields
termination_by structural fields => fields

end

/-- Membership up to equality of values. -/
def elem (value : Json) (values : List Json) : Bool := values.any (·.same value)

/-- Removes repeats; the first of equal values stays. -/
def distinct (values : List Json) : List Json :=
  values.foldl (fun kept value => if elem value kept then kept else kept ++ [value]) []

end Json

end TypeSchema
