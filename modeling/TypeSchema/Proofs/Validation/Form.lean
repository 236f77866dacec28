import TypeSchema.Proofs.Definition.Keywords
import TypeSchema.Proofs.Enums.Sorted
import TypeSchema.Proofs.References.Within

/-!
# The form of keywords

Draft 04 says which values may stand under a keyword.  A value is well-formed if every schema in it
keeps to that: lists of schemas have some and hold nothing else, an `enum` and a list of required
names have no repeats, and a type is one of seven or a list of them.  There may be leeway for the
few degenerate types that are not written in this form.
-/

namespace TypeSchema

/-- What is let pass beside the forms that draft 04 allows. -/
structure Leeway where
  undefinedType : Prop
  emptyAnyOf : Prop
  emptyAllOf : Prop

def Leeway.none : Leeway := ⟨False, False, False⟩

namespace Json

def simpleTypes : List String :=
  ["array", "boolean", "integer", "null", "number", "object", "string"]

/-- No value in the list is equal to another. -/
def NoRepeats (values : List Json) : Prop :=
  values.Pairwise fun a b => a.same b = false ∧ b.same a = false

/-! ## Keywords -/

def IsBranches (mayBeEmpty : Prop) (value : Json) : Prop :=
  ∃ branches, value = .arr branches ∧ (branches = [] → mayBeEmpty) ∧
    ∀ branch ∈ branches, ∃ fields, branch = .obj fields

def IsEnum (value : Json) : Prop := ∃ values, value = .arr values ∧ values ≠ [] ∧ NoRepeats values

def IsNames (value : Json) : Prop := ∃ names, value = strs names ∧ names ≠ [] ∧ names.Nodup

def IsType (leeway : Leeway) (value : Json) : Prop :=
  (∃ tag, value = .str tag ∧ (tag ∈ simpleTypes ∨ tag = "undefined" ∧ leeway.undefinedType)) ∨
    ∃ tags, value = strs tags ∧ tags ≠ [] ∧ tags.Nodup ∧ ∀ tag ∈ tags, tag ∈ simpleTypes

def KeywordFormed (leeway : Leeway) (keyword : String) (value : Json) : Prop :=
  match keyword with
  | "oneOf" => IsBranches False value
  | "anyOf" => IsBranches leeway.emptyAnyOf value
  | "allOf" => IsBranches leeway.emptyAllOf value
  | "enum" => IsEnum value
  | "required" => IsNames value
  | "type" => IsType leeway value
  | _ => True

/-- Every schema in the value is made of keywords in their form. -/
def WellFormed (leeway : Leeway) (value : Json) : Prop :=
  ∀ fields, SchemaAt value (.obj fields) → ∀ field ∈ fields,
    KeywordFormed leeway field.1 field.2

/-- What a single field of a schema adds to that. -/
def FieldFormed (leeway : Leeway) (keyword : String) (value : Json) : Prop :=
  KeywordFormed leeway keyword value ∧ ∀ part ∈ subschemas keyword value, part.WellFormed leeway

variable {leeway : Leeway} {keyword : String} {value : Json}

theorem wellFormed_obj {fields : List (String × Json)} :
    WellFormed leeway (.obj fields) ↔ ∀ field ∈ fields, FieldFormed leeway field.1 field.2 := by
  constructor
  · rintro h ⟨keyword, value⟩ hfield
    exact ⟨h fields (.whole _) _ hfield, fun part hpart inner hinner =>
      h inner (.under hfield hpart hinner)⟩
  · intro h inner hinner field hmem
    cases hinner with
    | whole => exact (h field hmem).1
    | under hfield hpart hinner => exact (h _ hfield).2 _ hpart inner hinner field hmem

theorem wellFormed_bool (b : Bool) : WellFormed leeway (.bool b) := by
  intro fields hinner
  cases hinner

/-! ## Fields -/

def formedKeywords : List String := ["oneOf", "anyOf", "allOf", "enum", "required", "type"]

theorem keywordFormed_other (h : keyword ∉ formedKeywords) : KeywordFormed leeway keyword value := by
  unfold KeywordFormed
  split <;> trivial

/-- A keyword that holds no schema. -/
theorem fieldFormed_value (hkey : isPlainKeyword keyword = true)
    (h : KeywordFormed leeway keyword value) : FieldFormed leeway keyword value := by
  refine ⟨h, fun part hpart => ?_⟩
  rw [subschemas_plain hkey value] at hpart
  exact absurd hpart List.not_mem_nil

theorem fieldFormed_arr (hkey : keyword ∉ namedSchemas) {items : List Json}
    (hform : KeywordFormed leeway keyword (.arr items))
    (h : ∀ item ∈ items, item.WellFormed leeway) : FieldFormed leeway keyword (.arr items) := by
  refine ⟨hform, fun part hpart => h part ?_⟩
  rw [subschemas, if_neg hkey] at hpart
  split at hpart
  · exact hpart
  · exact absurd hpart List.not_mem_nil

theorem fieldFormed_schema (hkey : keyword ∉ namedSchemas) (hfree : keyword ∉ formedKeywords)
    (hsingle : value.isArr = false) (h : value.WellFormed leeway) :
    FieldFormed leeway keyword value := by
  refine ⟨keywordFormed_other hfree, fun part hpart => ?_⟩
  unfold subschemas at hpart
  rw [if_neg hkey] at hpart
  split at hpart
  · split at hpart
    · cases hsingle
    · exact List.mem_singleton.1 hpart ▸ h
  · exact absurd hpart List.not_mem_nil

theorem fieldFormed_named (hkey : keyword ∈ namedSchemas) {fields : List (String × Json)}
    (h : ∀ field ∈ fields, field.2.WellFormed leeway) :
    FieldFormed leeway keyword (.obj fields) := by
  have hfree : keyword ∉ formedKeywords := by
    simp only [namedSchemas, List.mem_cons, List.not_mem_nil, or_false] at hkey
    rcases hkey with rfl | rfl <;> decide
  refine ⟨keywordFormed_other hfree, fun part hpart => ?_⟩
  rw [subschemas, if_pos hkey] at hpart
  obtain ⟨field, hfield, rfl⟩ := List.mem_map.1 hpart
  exact h field hfield

theorem isBranches_definitions {P : Prop} {branches : List Definition} (h : branches = [] → P) :
    IsBranches P (.arr (branches.map Definition.toJson)) := by
  refine ⟨_, rfl, fun hnil => h (List.map_eq_nil_iff.1 hnil), fun branch hbranch => ?_⟩
  obtain ⟨d, -, rfl⟩ := List.mem_map.1 hbranch
  exact ⟨d.entries, rfl⟩

theorem keywordFormed_union (keyword : UnionKeyword) (h : IsBranches False value) :
    KeywordFormed leeway keyword.text value := by
  cases keyword with
  | oneOf => exact h
  | anyOf =>
      obtain ⟨branches, rfl, hne, hobjects⟩ := h
      exact ⟨branches, rfl, fun hnil => (hne hnil).elim, hobjects⟩

/-! ## Enums -/

theorem noRepeats_distinct {values : List Json} (hvalues : ∀ v ∈ values, v.isScalar = true) :
    NoRepeats (distinct values) :=
  distinct_apart fun v hv => keysDiffer_of_isScalar (hvalues v hv)

/-- Sorting brings no repeats back. -/
theorem isEnum_sort {values : List Json} (hne : values ≠ [])
    (hvalues : ∀ v ∈ values, v.isScalar = true) : IsEnum (.arr (EnumValues.sort values)) := by
  have hperm := EnumValues.sort_perm values
  refine ⟨_, rfl, fun hnil => distinct_ne_nil hne ?_, ?_⟩
  · exact List.perm_nil.1 (hnil ▸ hperm).symm
  · exact (hperm.pairwise_iff fun h => h.symm).2 (noRepeats_distinct hvalues)

end Json

/-! ## Definitions -/

namespace Definition

open Json (FieldFormed fieldFormed_value keywordFormed_other simpleTypes formedKeywords)

variable {leeway : Leeway} {d : Definition}

def WellFormed (leeway : Leeway) (d : Definition) : Prop := d.toJson.WellFormed leeway

theorem wellFormed_iff :
    WellFormed leeway d ↔ ∀ field ∈ d.entries, FieldFormed leeway field.1 field.2 :=
  Json.wellFormed_obj

theorem wellFormed_empty : WellFormed leeway Dict.empty :=
  wellFormed_iff.2 fun _ h => absurd h List.not_mem_nil

namespace WellFormed

theorem insert (h : WellFormed leeway d) {key : String} {value : Json}
    (hfield : FieldFormed leeway key value) : WellFormed leeway (d.insert key value) := by
  refine wellFormed_iff.2 fun field hmem => ?_
  rcases Entries.mem_of_mem_insert hmem with rfl | hold
  · exact hfield
  · exact wellFormed_iff.1 h field hold

/-- A keyword that holds no schema, and whose value is free. -/
theorem plain (h : WellFormed leeway d) {key : String} {value : Json}
    (hkey : Json.isPlainKeyword key = true) (hfree : key ∉ formedKeywords) :
    WellFormed leeway (d.insert key value) :=
  h.insert (fieldFormed_value hkey (keywordFormed_other hfree))

theorem insertIf (h : WellFormed leeway d) {condition : Bool} {key : String} {value : Json}
    (hfield : condition = true → FieldFormed leeway key value) :
    WellFormed leeway (d.insertIf condition key value) := by
  unfold Definition.insertIf
  split
  · rename_i hcondition
    exact h.insert (hfield hcondition)
  · exact h

theorem merge (h : WellFormed leeway d) {later : Definition} (hlater : WellFormed leeway later) :
    WellFormed leeway (d.merge later) := by
  refine wellFormed_iff.2 fun field hmem => ?_
  rcases Entries.mem_of_mem_merge hmem with hold | hnew
  · exact wellFormed_iff.1 h field hold
  · exact wellFormed_iff.1 hlater field hnew

theorem setType (h : WellFormed leeway d) {tag : String} (htag : tag ∈ simpleTypes) :
    WellFormed leeway (d.setType tag) :=
  h.insert (fieldFormed_value rfl (.inl ⟨tag, rfl, .inl htag⟩))

theorem setTypes (h : WellFormed leeway d) {tags : List String} (hnodup : tags.Nodup)
    (htags : ∀ tag ∈ tags, tag ∈ simpleTypes) : WellFormed leeway (d.setTypes tags) := by
  unfold Definition.setTypes
  split
  · exact h
  · exact h.setType (htags _ List.mem_cons_self)
  · rename_i hne _
    exact h.insert (fieldFormed_value rfl (.inr ⟨tags, rfl, hne, hnodup, htags⟩))

end WellFormed

/-- A bare type other than undefined is simple. -/
theorem WellFormed.bareType (h : WellFormed leeway d) {tag : String} (hbare : d.bareType = some tag)
    (hne : tag ≠ "undefined") : tag ∈ simpleTypes := by
  have hmem := Dict.mem_entries_iff.2 (bareType_eq_some_iff.1 hbare).1
  rcases (wellFormed_iff.1 h _ hmem).1 with ⟨tag', heq, hsimple | ⟨hundefined, -⟩⟩ | ⟨tags, heq, -⟩
  · cases heq
    exact hsimple
  · cases heq
    exact absurd hundefined hne
  · cases heq

theorem wellFormed_reference (name : String) : WellFormed leeway (reference name) :=
  wellFormed_empty.insert ⟨keywordFormed_other (by decide), fun _ h => absurd h List.not_mem_nil⟩

theorem wellFormed_undefined (h : leeway.undefinedType) :
    WellFormed leeway (ofType "undefined") :=
  wellFormed_empty.insert (fieldFormed_value rfl (.inl ⟨"undefined", rfl, .inr ⟨rfl, h⟩⟩))

end Definition

end TypeSchema
