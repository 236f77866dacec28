import Mathlib.Data.List.Forall2
import TypeSchema.Proofs.Definition.Keywords

/-!
# Validation

What a document accepts if it is read as a schema of draft 04.  Only the keywords that describing a
type can write are read, all others say nothing of a value.  A reference is resolved by its name
among the definitions that the document brings along, and nothing beside it is read.

Validators differ in when two numbers are equal, in whether `1.0` is an integer and in the formats
that they know, so a `Dialect` leaves these open.
-/

namespace TypeSchema.Validation

structure Dialect where
  equal : Json → Json → Bool
  isInteger : Number → Bool
  hasFormat : String → String → Bool

namespace Dialect

def isInt : Number → Bool
  | .int _ => true
  | .real _ => false

/-- Tells numbers apart by the way in which they are written, and admits all formats. -/
def strict : Dialect := ⟨Json.same, isInt, fun _ _ => true⟩

variable (dialect : Dialect)

def hasType (v : Json) (tag : String) : Bool :=
  match v with
  | .null => tag == "null"
  | .bool _ => tag == "boolean"
  | .num number => tag == "number" || (tag == "integer" && dialect.isInteger number)
  | .str _ => tag == "string"
  | .arr _ => tag == "array"
  | .obj _ => tag == "object"

@[simp] theorem hasType_undefined (v : Json) : dialect.hasType v "undefined" = false := by
  cases v <;> rfl

/-! ## Keywords that hold no schemas -/

def fitsType (tags : Option Json) (v : Json) : Bool :=
  match tags with
  | some (.str tag) => dialect.hasType v tag
  | some (.arr tags) => tags.any fun tag => tag.str?.any (dialect.hasType v)
  | _ => true

def fitsEnum (values : Option Json) (v : Json) : Bool :=
  match values with
  | some (.arr values) => values.any (dialect.equal · v)
  | _ => true

def fitsFormat (format : Option Json) (v : Json) : Bool :=
  match format, v with
  | some (.str format), .str text => dialect.hasFormat format text
  | _, _ => true

end Dialect

def hasRequired (names : Option Json) (v : Json) : Bool :=
  match names, v with
  | some (.arr names), .obj fields =>
    names.all fun name => name.str?.all fun name => Entries.contains name fields
  | _, _ => true

def hasMinItems (least : Option Json) (v : Json) : Bool :=
  match least, v with
  | some (.num (.int least)), .arr items => decide (least ≤ items.length)
  | _, _ => true

/-! ## Keywords that hold schemas -/

/-- Decides from all verdicts, and gives none if one of them is missing. -/
def tally {α : Type} (decides : List Bool → Bool) (test : α → Option Bool) (items : List α) :
    Option Bool :=
  (items.mapM test).map decides

def all (verdicts : List Bool) : Bool := verdicts.all id

def any (verdicts : List Bool) : Bool := verdicts.any id

def one (verdicts : List Bool) : Bool := verdicts.count true == 1

section

variable (test : Json → Json → Option Bool)

/-- What is left over must fit a schema, or is admitted or refused as a whole. -/
def testOther (additional : Option Json) (v : Json) : Option Bool :=
  match additional with
  | none => some true
  | some (.bool admitted) => some admitted
  | some schema => test schema v

def testField (properties additional : Option Json) (field : String × Json) : Option Bool :=
  match properties.bind (·.field? field.1) with
  | some schema => test schema field.2
  | none => testOther test additional field.2

def testFields (properties additional : Option Json) (v : Json) : Option Bool :=
  match v with
  | .obj fields => tally all (testField test properties additional) fields
  | _ => some true

/-- A single schema is for all items; a list has one schema for each of the first items. -/
def testItems (items additional : Option Json) (v : Json) : Option Bool :=
  match v, items with
  | .arr _, none => some true
  | .arr values, some (.arr schemas) =>
    tally all id [
      tally all (fun item => test item.1 item.2) (schemas.zip values),
      tally all (testOther test additional) (values.drop schemas.length)]
  | .arr values, some schema => tally all (test schema) values
  | _, _ => some true

def testBranches (decides : List Bool → Bool) (branches : Option Json) (v : Json) : Option Bool :=
  match branches with
  | some (.arr schemas) => tally decides (test · v) schemas
  | _ => some true

/-- Whether a value fits all keywords of a schema, of which look-up is all that is needed. -/
def check (dialect : Dialect) (keyword : String → Option Json) (v : Json) : Option Bool :=
  tally all id [
    some (dialect.fitsType (keyword "type") v),
    some (dialect.fitsEnum (keyword "enum") v),
    some (dialect.fitsFormat (keyword "format") v),
    some (hasRequired (keyword "required") v),
    some (hasMinItems (keyword "minItems") v),
    testFields test (keyword "properties") (keyword "additionalProperties") v,
    testItems test (keyword "items") (keyword "additionalItems") v,
    testBranches test all (keyword "allOf") v,
    testBranches test any (keyword "anyOf") v,
    testBranches test one (keyword "oneOf") v]

end

/-! ## Schemas -/

/-- The definition that a reference names. -/
def target (definitions : Entries String Json) (ref : Json) : Option Json :=
  ref.str?.bind fun pointer =>
    Entries.find? pointer
      (definitions.map fun entry => (Definition.definitionsPointer ++ entry.1, entry.2))

/-- The verdict on a value, if it is reached within a limited depth of schemas and references. -/
def validate (dialect : Dialect) (definitions : Entries String Json) :
    Nat → Json → Json → Option Bool
  | 0, _, _ => none
  | depth + 1, .obj fields, v =>
    match Entries.find? "$ref" fields with
    | some ref => (target definitions ref).bind fun schema =>
        validate dialect definitions depth schema v
    | none =>
      check (validate dialect definitions depth) dialect (fun key => Entries.find? key fields) v
  | _ + 1, _, _ => none

/-- The document accepts the value. -/
def Accepts (dialect : Dialect) (document : Definition) (v : Json) : Prop :=
  ∃ depth, validate dialect document.definitions depth document.toJson v = some true

def Rejects (dialect : Dialect) (document : Definition) (v : Json) : Prop :=
  ∃ depth, validate dialect document.definitions depth document.toJson v = some false

variable {dialect : Dialect} {definitions : Entries String Json} {d d' : Definition} {v : Json}
  {depth : Nat}

/-! ## Depth -/

theorem mapM_of_forall {α : Type} {test : α → Option Bool} {accepts : α → Bool} {items : List α}
    (h : ∀ item ∈ items, test item = some (accepts item)) :
    items.mapM test = some (items.map accepts) := by
  induction items with
  | nil => rfl
  | cons item rest ih =>
      obtain ⟨hitem, hrest⟩ := List.forall_mem_cons.1 h
      simp [List.mapM_cons, hitem, ih hrest]

/-- A verdict, once reached, stays. -/
def Stays (verdict verdict' : Option Bool) : Prop :=
  ∀ answer, verdict = some answer → verdict' = some answer

theorem Stays.refl (verdict : Option Bool) : Stays verdict verdict := fun _ h => h

theorem tally_stays {α β : Type} {test : α → Option Bool} {test' : β → Option Bool}
    {items : List α} {items' : List β} (decides : List Bool → Bool)
    (h : List.Forall₂ (fun a b => Stays (test a) (test' b)) items items') :
    Stays (tally decides test items) (tally decides test' items') := by
  have hmapM (answers : List Bool) (hitems : items.mapM test = some answers) :
      items'.mapM test' = some answers := by
    induction h generalizing answers with
    | nil => exact hitems
    | cons hfirst _ ih =>
        simp only [List.mapM_cons, bind, Option.bind_eq_some_iff] at hitems ⊢
        obtain ⟨first, hfirst', rest, hrest, hpure⟩ := hitems
        exact ⟨first, hfirst first hfirst', rest, ih rest hrest, hpure⟩
  intro answer htally
  obtain ⟨answers, hitems, rfl⟩ := Option.map_eq_some_iff.1 htally
  rw [tally, hmapM answers hitems]
  rfl

section

variable {test test' : Json → Json → Option Bool}
  (h : ∀ schema v, Stays (test schema v) (test' schema v))
include h

theorem testOther_stays (additional : Option Json) (v : Json) :
    Stays (testOther test additional v) (testOther test' additional v) := by
  unfold testOther
  split
  · exact .refl _
  · exact .refl _
  · exact h _ v

theorem testFields_stays (properties additional : Option Json) (v : Json) :
    Stays (testFields test properties additional v) (testFields test' properties additional v) := by
  unfold testFields
  split
  · refine tally_stays all (List.forall₂_same.2 fun field _ => ?_)
    unfold testField
    split
    · exact h _ field.2
    · exact testOther_stays h additional field.2
  · exact .refl _

theorem testItems_stays (items additional : Option Json) (v : Json) :
    Stays (testItems test items additional v) (testItems test' items additional v) := by
  unfold testItems
  split
  · exact .refl _
  · refine tally_stays all (.cons (tally_stays all ?_) (.cons (tally_stays all ?_) .nil))
    · exact List.forall₂_same.2 fun item _ => h item.1 item.2
    · exact List.forall₂_same.2 fun value _ => testOther_stays h additional value
  · exact tally_stays all (List.forall₂_same.2 fun value _ => h _ value)
  · exact .refl _

theorem testBranches_stays (decides : List Bool → Bool) (branches : Option Json) (v : Json) :
    Stays (testBranches test decides branches v) (testBranches test' decides branches v) := by
  unfold testBranches
  split
  · exact tally_stays decides (List.forall₂_same.2 fun schema _ => h schema v)
  · exact .refl _

theorem check_stays (dialect : Dialect) (keyword : String → Option Json) (v : Json) :
    Stays (check test dialect keyword v) (check test' dialect keyword v) :=
  tally_stays all (.cons (.refl _) <| .cons (.refl _) <| .cons (.refl _) <| .cons (.refl _) <|
    .cons (.refl _) <| .cons (testFields_stays h _ _ v) <| .cons (testItems_stays h _ _ v) <|
    .cons (testBranches_stays h all _ v) <| .cons (testBranches_stays h any _ v) <|
    .cons (testBranches_stays h one _ v) .nil)

end

theorem validate_stays (dialect : Dialect) (definitions : Entries String Json) (depth : Nat)
    (schema v : Json) :
    Stays (validate dialect definitions depth schema v)
      (validate dialect definitions (depth + 1) schema v) := by
  induction depth generalizing schema v with
  | zero => exact fun _ h => by cases h
  | succ depth ih =>
      cases schema with
      | obj fields =>
          intro answer hanswer
          rw [validate] at hanswer ⊢
          split at hanswer
          · obtain ⟨schema, htarget, hschema⟩ := Option.bind_eq_some_iff.1 hanswer
            exact Option.bind_eq_some_iff.2 ⟨schema, htarget, ih schema v answer hschema⟩
          · exact check_stays ih dialect _ v answer hanswer
      | _ => exact fun _ h => by cases h

theorem validate_stays_from {depth depth' : Nat} (hle : depth ≤ depth') {schema : Json}
    {answer : Bool} (h : validate dialect definitions depth schema v = some answer) :
    validate dialect definitions depth' schema v = some answer := by
  induction hle with
  | refl => exact h
  | step _ ih => exact validate_stays dialect definitions _ schema v answer ih

/-- No value is both accepted and rejected. -/
theorem Rejects.not_accepts (h : Rejects dialect d v) : ¬ Accepts dialect d v := by
  rintro ⟨depth, haccepts⟩
  obtain ⟨depth', hrejects⟩ := h
  cases (validate_stays_from (Nat.le_max_left depth depth') haccepts).symm.trans
    (validate_stays_from (Nat.le_max_right depth depth') hrejects)

/-! ## Keywords that are read -/

/-- The keywords that bear on validity. -/
def readKeywords : List String := [
  "$ref", "type", "enum", "format", "required", "minItems", "properties", "additionalProperties",
  "items", "additionalItems", "allOf", "anyOf", "oneOf"]

/-- Definitions that differ in nothing but keywords that are not read accept the same values. -/
theorem validate_congr (h : ∀ key ∈ readKeywords, d.find? key = d'.find? key) :
    validate dialect definitions depth d.toJson v =
      validate dialect definitions depth d'.toJson v := by
  cases depth with
  | zero => rfl
  | succ depth =>
      have hread (key : String) (hkey : key ∈ readKeywords) :
          Entries.find? key d.entries = Entries.find? key d'.entries := h key hkey
      simp only [readKeywords, List.forall_mem_cons] at hread
      simp only [Definition.toJson, Json.ofDict, validate, check, hread]

theorem validate_of_no_reference {d : Definition} (h : d.find? "$ref" = none) (n : Nat) (v : Json) :
    validate dialect definitions (n + 1) d.toJson v =
      check (validate dialect definitions n) dialect d.find? v := by
  change (match d.find? "$ref" with | some _ => _ | none => _) = _
  rw [h]
  rfl

theorem target_eq (definitions : Entries String Json) (name : String) :
    target definitions (.str (Definition.definitionsPointer ++ name)) =
      Entries.find? name definitions := by
  unfold target
  induction definitions with
  | nil => rfl
  | cons entry rest ih =>
      simp only [Json.str?, Option.bind_some] at ih ⊢
      simp only [List.map_cons, Entries.find?, String.append_right_inj, ih]

theorem validate_reference {name : String} {schema : Json}
    (h : Entries.find? name definitions = some schema) :
    validate dialect definitions (depth + 1) (Definition.reference name).toJson v =
      validate dialect definitions depth schema v := by
  change (target definitions _).bind _ = _
  rw [target_eq, h]
  rfl

end TypeSchema.Validation
