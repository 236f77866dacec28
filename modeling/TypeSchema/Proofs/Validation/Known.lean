import TypeSchema.Proofs.Json.Equality
import TypeSchema.Proofs.Validation.Unions

/-!
# Schemas known in part

What the keywords for types, values and unions say of a value.  A schema that has any other keyword
is left to a test of which nothing is known.
-/

namespace TypeSchema.Validation

/-- Numbers are equal if their values are; which of them are integers is left open. -/
def Dialect.byValue (isInteger : Number → Bool) : Dialect :=
  ⟨Json.equal, isInteger, fun _ _ => true⟩

def knownKeywords : List String := ["type", "enum", "oneOf", "anyOf"]

def isKnown (fields : List (String × Json)) : Bool := fields.all (·.1 ∈ knownKeywords)

section

variable (dialect : Dialect) (other : Json → Json → Bool)

mutual

/-- Whether a schema accepts a value, if `other` says so of the schemas with other keywords. -/
def admits : Json → Json → Bool
  | .obj fields, v => if isKnown fields then admitsFields fields v else other (.obj fields) v
  | schema, v => other schema v
termination_by structural schema => schema

def admitsFields : List (String × Json) → Json → Bool
  | [], _ => true
  | (key, value) :: rest, v => admitsKeyword value key v && admitsFields rest v
termination_by structural fields => fields

def admitsKeyword : Json → String → Json → Bool
  | .arr items, "oneOf", v => one (verdicts items v)
  | .arr items, "anyOf", v => any (verdicts items v)
  | value, "type", v => dialect.fitsType (some value) v
  | value, "enum", v => dialect.fitsEnum (some value) v
  | _, _, _ => true
termination_by structural value => value

/-- Which of the schemas accept the value. -/
def verdicts : List Json → Json → List Bool
  | [], _ => []
  | schema :: rest, v => admits schema v :: verdicts rest v
termination_by structural schemas => schemas

end

end

variable {dialect : Dialect} {other : Json → Json → Bool} {fields : List (String × Json)} {v : Json}

theorem verdicts_eq (schemas : List Json) (v : Json) :
    verdicts dialect other schemas v = schemas.map (admits dialect other · v) := by
  induction schemas with
  | nil => rfl
  | cons schema rest ih => rw [verdicts, ih, List.map_cons]

theorem admitsFields_eq (fields : List (String × Json)) (v : Json) :
    admitsFields dialect other fields v =
      fields.all fun field => admitsKeyword dialect other field.2 field.1 v := by
  induction fields with
  | nil => rfl
  | cons field rest ih => rw [admitsFields, ih, List.all_cons]

theorem admits_known (h : isKnown fields = true) (v : Json) :
    admits dialect other (.obj fields) v =
      fields.all fun field => admitsKeyword dialect other field.2 field.1 v := by
  rw [admits, if_pos h, admitsFields_eq]

theorem admits_single {key : String} (h : key ∈ knownKeywords) (value v : Json) :
    admits dialect other (.obj [(key, value)]) v = admitsKeyword dialect other value key v := by
  rw [admits_known (by simp [isKnown, h]), List.all_cons, List.all_nil, Bool.and_true]

theorem admitsKeyword_type (value v : Json) :
    admitsKeyword dialect other value "type" v = dialect.fitsType (some value) v := by
  cases value <;> rfl

theorem admitsKeyword_enum (value v : Json) :
    admitsKeyword dialect other value "enum" v = dialect.fitsEnum (some value) v := by
  cases value <;> rfl

theorem admitsKeyword_branches (kind : UnionKeyword) (schemas : List Json) (v : Json) :
    admitsKeyword dialect other (.arr schemas) kind.text v =
      kind.decides (schemas.map (admits dialect other · v)) := by
  rw [← verdicts_eq]
  cases kind <;> rfl

/-! ## Agreement with validation -/

theorem keywords_all_eq (hkeys : (Entries.keys fields).Nodup) (hknown : isKnown fields = true)
    (test : Json → String → Bool) :
    (fields.all fun field => test field.2 field.1) =
      knownKeywords.all fun key => (Entries.find? key fields).all (test · key) := by
  have hknown := List.all_eq_true.1 hknown
  rw [Bool.eq_iff_iff, List.all_eq_true, List.all_eq_true]
  constructor
  · intro h key _
    cases hvalue : Entries.find? key fields with
    | none => rfl
    | some value => exact h _ (Entries.mem_of_find?_eq_some hvalue)
  · intro h field hfield
    have hkey := h field.1 (of_decide_eq_true (hknown field hfield))
    rwa [(Entries.find?_eq_some_iff_mem hkeys).2 hfield] at hkey

theorem find?_of_known (hknown : isKnown fields = true) {key : String}
    (hkey : key ∉ knownKeywords) : Entries.find? key fields = none := by
  refine Entries.find?_eq_none_iff.2 fun hmem => ?_
  obtain ⟨field, hfield, rfl⟩ := List.mem_map.1 hmem
  exact hkey (of_decide_eq_true (List.all_eq_true.1 hknown field hfield))

theorem eq_map_of_mapM {α β : Type} {test : α → Option β} {expected : α → β} {items : List α}
    {answers : List β} (h : items.mapM test = some answers)
    (htest : ∀ item ∈ items, ∀ answer, test item = some answer → expected item = answer) :
    items.map expected = answers := by
  induction items generalizing answers with
  | nil => exact Option.some.inj h
  | cons item rest ih =>
      simp only [List.mapM_cons, bind, Option.bind_eq_some_iff] at h
      obtain ⟨answer, hanswer, others, hothers, hpure⟩ := h
      obtain ⟨hitem, hrest⟩ := List.forall_mem_cons.1 htest
      rw [List.map_cons, hitem answer hanswer, ih hothers hrest]
      exact Option.some.inj hpure

variable {test : Json → Json → Option Bool} {keyword : String → Option Json} {answer : Bool}

theorem all_types (tags : Option Json) :
    tags.all (admitsKeyword dialect other · "type" v) = dialect.fitsType tags v := by
  cases tags with
  | none => rfl
  | some value => rw [Option.all_some, admitsKeyword_type]

theorem all_values (values : Option Json) :
    values.all (admitsKeyword dialect other · "enum" v) = dialect.fitsEnum values v := by
  cases values with
  | none => rfl
  | some value => rw [Option.all_some, admitsKeyword_enum]

theorem all_branches {branches : Option Json} (kind : UnionKeyword)
    (h : testBranches test kind.decides branches v = some answer)
    (hbranches : ∀ schemas, branches = some (.arr schemas) → ∀ schema ∈ schemas, ∀ verdict,
      test schema v = some verdict → admits dialect other schema v = verdict) :
    branches.all (admitsKeyword dialect other · kind.text v) = answer := by
  cases branches with
  | none => exact Option.some.inj h
  | some value =>
      rw [Option.all_some]
      cases value with
      | arr schemas =>
          obtain ⟨answers, hanswers, rfl⟩ := Option.map_eq_some_iff.1 h
          rw [admitsKeyword_branches, eq_map_of_mapM hanswers (hbranches schemas rfl)]
      | _ => cases kind <;> exact Option.some.inj h

theorem check_known (hother : ∀ key ∈ readKeywords, key ∉ knownKeywords → keyword key = none)
    (h : check test dialect keyword v = some answer) :
    ∃ anyVerdict oneVerdict,
      testBranches test any (keyword "anyOf") v = some anyVerdict ∧
      testBranches test one (keyword "oneOf") v = some oneVerdict ∧
      answer = (dialect.fitsType (keyword "type") v && (dialect.fitsEnum (keyword "enum") v &&
        (oneVerdict && anyVerdict))) := by
  simp (disch := decide) only [check, hother, testFields_none, testItems_none] at h
  cases hany : testBranches test any (keyword "anyOf") v with
  | none => rw [hany] at h; cases h
  | some anyVerdict =>
      cases hone : testBranches test one (keyword "oneOf") v with
      | none => rw [hany, hone] at h; cases h
      | some oneVerdict =>
          rw [hany, hone] at h
          refine ⟨anyVerdict, oneVerdict, rfl, rfl, (Option.some.inj h).symm.trans ?_⟩
          cases dialect.fitsType (keyword "type") v <;>
            cases dialect.fitsEnum (keyword "enum") v <;>
            cases oneVerdict <;> cases anyVerdict <;> rfl

/-- A verdict that validation reaches is the one that follows from what is known, if the schemas
with other keywords are left to validation. -/
theorem admits_of_validate {definitions : Entries String Json} {schema : Json} {depth bound : Nat}
    (hkeys : schema.KeysDiffer) (hbound : depth ≤ bound)
    (h : validate dialect definitions depth schema v = some answer) :
    admits dialect (fun schema v => (validate dialect definitions bound schema v).getD false)
      schema v = answer := by
  induction depth generalizing schema answer with
  | zero => cases h
  | succ depth ih =>
      cases schema with
      | obj fields =>
          cases hknown : isKnown fields with
          | false =>
              rw [admits, hknown, if_neg Bool.false_ne_true, validate_stays_from hbound h]
              rfl
          | true =>
              have hother {key : String} (hkey : key ∉ knownKeywords) :
                  Entries.find? key fields = none := find?_of_known hknown hkey
              have hbranches (key : String) (schemas : List Json)
                  (hschemas : Entries.find? key fields = some (.arr schemas)) (schema : Json)
                  (hschema : schema ∈ schemas) (verdict : Bool)
                  (hverdict : validate dialect definitions depth schema v = some verdict) :
                  _ := ih (Json.everyObject_arr.1 (hkeys.find? hschemas) schema hschema)
                    (Nat.le_of_succ_le hbound) hverdict
              rw [validate, hother (by decide)] at h
              obtain ⟨anyVerdict, oneVerdict, hany, hone, rfl⟩ := check_known (fun _ _ => hother) h
              rw [admits_known hknown]
              refine (keywords_all_eq hkeys.nodup hknown fun value key =>
                admitsKeyword dialect _ value key v).trans ?_
              simp only [knownKeywords, List.all_cons, List.all_nil, Bool.and_true]
              rw [all_types, all_values, ← all_branches .anyOf hany (hbranches "anyOf"),
                ← all_branches .oneOf hone (hbranches "oneOf")]
              rfl
      | _ => cases h

end TypeSchema.Validation
