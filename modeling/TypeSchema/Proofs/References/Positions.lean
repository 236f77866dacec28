import TypeSchema.Definition.Basic
import TypeSchema.Proofs.Json.Fields

/-!
# References in schema positions

A document is a schema, and some of its keywords hold further schemas: by name, one at a time, or in
a list.  `SchemaAt` reaches all of them.  A value `RefersWithin` some names if every reference in a
schema position of it leads to one of these names; for an object this is a condition on each of its
fields alone, so it can be followed through the way a definition is put together.
-/

namespace TypeSchema

namespace Json

/-! ## Schema positions -/

def namedSchemas : List String := ["definitions", "properties"]

def listedSchemas : List String :=
  ["items", "additionalItems", "additionalProperties", "oneOf", "anyOf", "allOf"]

def subschemas (keyword : String) (value : Json) : List Json :=
  if keyword ∈ namedSchemas then
    match value with
    | .obj fields => fields.map (·.2)
    | _ => []
  else if keyword ∈ listedSchemas then
    match value with
    | .arr items => items
    | schema => [schema]
  else []

/-- The second value stands in a schema position of the first. -/
inductive SchemaAt : Json → Json → Prop where
  | whole (value) : SchemaAt value value
  | under {fields keyword value part inner} (hfield : (keyword, value) ∈ fields)
      (hpart : part ∈ subschemas keyword value) (hinner : SchemaAt part inner) :
      SchemaAt (.obj fields) inner

/-- References in schema positions lead to these names. -/
def RefersWithin (names : List String) (value : Json) : Prop :=
  ∀ fields ref, SchemaAt value (.obj fields) → ("$ref", .str ref) ∈ fields →
    ∃ name ∈ names, ref = Definition.definitionsPointer ++ name

/-- What a single field of a schema adds to that. -/
def FieldWithin (names : List String) (keyword : String) (value : Json) : Prop :=
  (keyword = "$ref" → ∀ ref, value = .str ref →
    ∃ name ∈ names, ref = Definition.definitionsPointer ++ name) ∧
  ∀ part ∈ subschemas keyword value, RefersWithin names part

theorem refersWithin_obj {names : List String} {fields : List (String × Json)} :
    RefersWithin names (.obj fields) ↔
      ∀ field ∈ fields, FieldWithin names field.1 field.2 := by
  constructor
  · rintro h ⟨keyword, value⟩ hfield
    refine ⟨?_, ?_⟩
    · rintro rfl ref rfl
      exact h fields ref (.whole _) hfield
    · intro part hpart inner ref hinner href
      exact h inner ref (.under hfield hpart hinner) href
  · intro h inner ref hinner href
    cases hinner with
    | whole => exact (h _ href).1 rfl ref rfl
    | under hfield hpart hinner => exact (h _ hfield).2 _ hpart inner ref hinner href

theorem RefersWithin.mono {names names' : List String} {value : Json} (hsub : names ⊆ names')
    (h : RefersWithin names value) : RefersWithin names' value := by
  intro fields ref hat href
  obtain ⟨name, hname, rfl⟩ := h fields ref hat href
  exact ⟨name, hsub hname, rfl⟩

theorem lacksText_of_mem_subschemas {key keyword : String} {value part : Json}
    (h : value.lacksText key = true) (hpart : part ∈ subschemas keyword value) :
    part.lacksText key = true := by
  unfold subschemas at hpart
  split at hpart
  · split at hpart
    · obtain ⟨field, hfield, rfl⟩ := List.mem_map.1 hpart
      exact (lacksText_obj.1 h field hfield).2
    · simp at hpart
  · split at hpart
    · split at hpart
      · exact everyField_arr.1 h part hpart
      · rw [List.mem_singleton] at hpart
        exact hpart ▸ h
    · simp at hpart

theorem refersWithin_of_lacksText {names : List String} {value : Json}
    (h : value.lacksText "$ref" = true) : RefersWithin names value := by
  intro fields ref hat href
  generalize hinner : Json.obj fields = inner at hat
  induction hat with
  | whole value =>
      subst hinner
      exact absurd rfl ((lacksText_obj.1 h _ href).1 rfl ref)
  | under hfield hpart _ ih =>
      exact ih (lacksText_of_mem_subschemas (lacksText_obj.1 h _ hfield).2 hpart) hinner

/-! ## Fields -/

theorem fieldWithin_of_lacksText {names : List String} {keyword : String} {value : Json}
    (hkey : keyword = "$ref" → ∀ text, value ≠ .str text) (h : value.lacksText "$ref" = true) :
    FieldWithin names keyword value :=
  ⟨fun hk ref hv => absurd hv (hkey hk ref), fun _ hpart =>
    refersWithin_of_lacksText (lacksText_of_mem_subschemas h hpart)⟩

theorem fieldWithin_arr {names : List String} {keyword : String} {items : List Json}
    (h : ∀ item ∈ items, RefersWithin names item) : FieldWithin names keyword (.arr items) := by
  refine ⟨fun _ ref hv => by simp at hv, fun part hpart => h part ?_⟩
  unfold subschemas at hpart
  split at hpart
  · simp at hpart
  · split at hpart
    · exact hpart
    · simp at hpart

theorem fieldWithin_schema {names : List String} {keyword : String}
    {fields : List (String × Json)} (hkey : keyword ∉ namedSchemas)
    (h : RefersWithin names (.obj fields)) : FieldWithin names keyword (.obj fields) := by
  refine ⟨fun _ ref hv => by simp at hv, fun part hpart => ?_⟩
  rw [subschemas, if_neg hkey] at hpart
  split at hpart
  · rw [List.mem_singleton] at hpart
    exact hpart ▸ h
  · simp at hpart

theorem fieldWithin_named {names : List String} {keyword : String}
    {fields : List (String × Json)} (hkey : keyword ∈ namedSchemas)
    (h : ∀ field ∈ fields, RefersWithin names field.2) :
    FieldWithin names keyword (.obj fields) := by
  refine ⟨fun _ ref hv => by simp at hv, fun part hpart => ?_⟩
  rw [subschemas, if_pos hkey] at hpart
  obtain ⟨field, hfield, rfl⟩ := List.mem_map.1 hpart
  exact h field hfield

theorem FieldWithin.merge {names : List String} {keyword : String}
    {existing nested : List (String × Json)} (h : FieldWithin names keyword (.obj existing))
    (hnested : lacksText "$ref" (.obj nested) = true) :
    FieldWithin names keyword (.obj (Entries.merge existing nested)) := by
  have hadded : ∀ field ∈ nested, FieldWithin names field.1 field.2 := fun field hfield =>
    have hlacks := lacksText_obj.1 hnested field hfield
    fieldWithin_of_lacksText hlacks.1 hlacks.2
  by_cases hkey : keyword ∈ namedSchemas
  · refine fieldWithin_named hkey fun field hfield => ?_
    rcases Entries.mem_of_mem_merge hfield with hold | hnew
    · have hmem : field.2 ∈ subschemas keyword (.obj existing) := by
        rw [subschemas, if_pos hkey]
        exact List.mem_map_of_mem hold
      exact h.2 _ hmem
    · exact refersWithin_of_lacksText (lacksText_obj.1 hnested field hnew).2
  · refine ⟨fun _ ref hv => by simp at hv, fun part hpart => ?_⟩
    rw [subschemas, if_neg hkey] at hpart
    split at hpart
    · rename_i hlisted
      rw [List.mem_singleton] at hpart
      subst hpart
      have hold : RefersWithin names (.obj existing) :=
        h.2 _ (by rw [subschemas, if_neg hkey, if_pos hlisted]; exact List.mem_singleton.2 rfl)
      refine refersWithin_obj.2 fun field hfield => ?_
      rcases Entries.mem_of_mem_merge hfield with hfield | hfield
      · exact refersWithin_obj.1 hold field hfield
      · exact hadded field hfield
    · simp at hpart

end Json

end TypeSchema
