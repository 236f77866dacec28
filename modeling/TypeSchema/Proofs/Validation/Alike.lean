import TypeSchema.Proofs.Validation.Draft04

/-!
# Schemas that look alike

Two definitions look alike if each keyword holds the same in both, up to schemas that are related.
If related schemas have the same verdicts, so do definitions that look alike; the limits of depth on
both sides need not be the same, and neither do the definitions to which references lead.
-/

namespace TypeSchema.Validation

/-- Both verdicts are reached, and they are the same. -/
def Agree (verdict verdict' : Option Bool) : Prop :=
  ∃ answer, verdict = some answer ∧ verdict' = some answer

theorem agree_some (answer : Bool) : Agree (some answer) (some answer) := ⟨answer, rfl, rfl⟩

theorem mapM_agree {α β : Type} {test : α → Option Bool} {test' : β → Option Bool} {items : List α}
    {items' : List β} (h : List.Forall₂ (fun a b => Agree (test a) (test' b)) items items') :
    ∃ answers, items.mapM test = some answers ∧ items'.mapM test' = some answers := by
  induction h with
  | nil => exact ⟨[], rfl, rfl⟩
  | cons hfirst _ ih =>
      obtain ⟨answer, hfirst, hfirst'⟩ := hfirst
      obtain ⟨answers, hrest, hrest'⟩ := ih
      exact ⟨answer :: answers, by simp [List.mapM_cons, hfirst, hrest],
        by simp [List.mapM_cons, hfirst', hrest']⟩

theorem tally_agree {α β : Type} {test : α → Option Bool} {test' : β → Option Bool} {items : List α}
    {items' : List β} (decides : List Bool → Bool)
    (h : List.Forall₂ (fun a b => Agree (test a) (test' b)) items items') :
    Agree (tally decides test items) (tally decides test' items') := by
  obtain ⟨answers, hitems, hitems'⟩ := mapM_agree h
  exact ⟨decides answers, by rw [tally, hitems]; rfl, by rw [tally, hitems']; rfl⟩

/-! ## Keywords -/

/-- Keywords that hold no schemas; the reference is not among them. -/
def plainKeywords : List String := [
  "type", "enum", "format", "required", "minItems", "typeof", "defaultProperties", "propertyOrder",
  "default"]

def schemaKeywords : List String := ["additionalProperties", "items", "additionalItems"]

def listKeywords : List String := ["items", "allOf", "anyOf", "oneOf"]

theorem plainKeywords_disjoint : ∀ key ∈ plainKeywords,
    key ∉ schemaKeywords ∧ key ∉ listKeywords ∧ key ≠ "properties" := by
  decide

/-- What a keyword holds on both sides, where schemas may be any that are related. -/
inductive AlikeAt (related : Json → Json → Prop) (key : String) : Json → Json → Prop where
  | plain (value) (hkey : key ∈ plainKeywords) : AlikeAt related key value value
  | flag (admitted) (hkey : key = "additionalProperties") :
      AlikeAt related key (.bool admitted) (.bool admitted)
  | schema {d d' : Definition} (hkey : key ∈ schemaKeywords) (h : related d.toJson d'.toJson) :
      AlikeAt related key d.toJson d'.toJson
  | list {items items'} (hkey : key ∈ listKeywords) (h : List.Forall₂ related items items') :
      AlikeAt related key (.arr items) (.arr items')
  | fields {fields fields' : Entries String Json} (hkey : key = "properties")
      (h : List.Forall₂ (fun field field' => field.1 = field'.1 ∧ related field.2 field'.2)
        fields fields') :
      AlikeAt related key (.obj fields) (.obj fields')

section

variable {related : Json → Json → Prop} {key : String} {x x' y y' : Option Json} {v : Json}
  {test test' : Json → Json → Option Bool}

theorem eq_of_plain (h : Option.Rel (AlikeAt related key) x x') (hkey : key ∈ plainKeywords) :
    x = x' := by
  obtain ⟨hschema, hlist, hproperties⟩ := plainKeywords_disjoint key hkey
  cases h with
  | none => rfl
  | some h =>
      cases h with
      | plain => rfl
      | flag => rfl
      | schema hkey' => exact absurd hkey' hschema
      | list hkey' => exact absurd hkey' hlist
      | fields hkey' => exact absurd hkey' hproperties

theorem find?_fields {fields fields' : Entries String Json} (name : String)
    (h : List.Forall₂ (fun field field' => field.1 = field'.1 ∧ related field.2 field'.2)
      fields fields') :
    Option.Rel related (Entries.find? name fields) (Entries.find? name fields') := by
  induction h with
  | nil => exact .none
  | @cons field field' _ _ hfirst _ ih =>
      obtain ⟨key, schema⟩ := field
      obtain ⟨key', schema'⟩ := field'
      obtain ⟨rfl, hschema⟩ := hfirst
      unfold Entries.find?
      split
      · exact .some hschema
      · exact ih

variable (htest : ∀ s s', related s s' → ∀ v, Agree (test s v) (test' s' v))
include htest

theorem testOther_agree (hkey : key = "additionalProperties" ∨ key = "additionalItems")
    (h : Option.Rel (AlikeAt related key) x x') (v : Json) :
    Agree (testOther test x v) (testOther test' x' v) := by
  have hother : key ∉ plainKeywords ∧ key ∉ listKeywords ∧ key ≠ "properties" := by
    rcases hkey with rfl | rfl <;> decide
  cases h with
  | none => exact agree_some true
  | some h =>
      cases h with
      | plain _ hkey' => exact absurd hkey' hother.1
      | flag admitted => exact agree_some admitted
      | schema _ hschema => exact htest _ _ hschema v
      | list hkey' => exact absurd hkey' hother.2.1
      | fields hkey' => exact absurd hkey' hother.2.2

theorem testFields_agree (h : Option.Rel (AlikeAt related "properties") x x')
    (hothers : Option.Rel (AlikeAt related "additionalProperties") y y') (v : Json) :
    Agree (testFields test x y v) (testFields test' x' y' v) := by
  have hfield (field : String × Json) :
      Agree (testField test x y field) (testField test' x' y' field) := by
    have hschema : Option.Rel related (x.bind (·.field? field.1)) (x'.bind (·.field? field.1)) := by
      cases h with
      | none => exact .none
      | some h =>
          cases h with
          | plain _ hkey | flag _ hkey | schema hkey | list hkey => exact absurd hkey (by decide)
          | fields _ hfields => exact find?_fields field.1 hfields
    unfold testField
    generalize x.bind (·.field? field.1) = schema, x'.bind (·.field? field.1) = schema' at hschema
    cases hschema with
    | none => exact testOther_agree htest (.inl rfl) hothers field.2
    | some hschema => exact htest _ _ hschema field.2
  unfold testFields
  split
  · exact tally_agree all (List.forall₂_same.2 fun field _ => hfield field)
  · exact agree_some true

theorem testItems_agree (h : Option.Rel (AlikeAt related "items") x x')
    (hothers : Option.Rel (AlikeAt related "additionalItems") y y') (v : Json) :
    Agree (testItems test x y v) (testItems test' x' y' v) := by
  cases v with
  | arr values =>
      cases h with
      | none => exact agree_some true
      | some h =>
          cases h with
          | plain _ hkey | flag _ hkey | fields hkey => exact absurd hkey (by decide)
          | schema _ hschema =>
              exact tally_agree all (List.forall₂_same.2 fun value _ => htest _ _ hschema value)
          | list _ hschemas =>
              refine tally_agree all (.cons (tally_agree all ?_) (.cons ?_ .nil))
              · clear hothers
                induction hschemas generalizing values with
                | nil => exact .nil
                | cons hschema _ ih =>
                    cases values with
                    | nil => exact .nil
                    | cons value rest => exact .cons (htest _ _ hschema value) (ih rest)
              · rw [id, id, hschemas.length_eq]
                exact tally_agree all (List.forall₂_same.2 fun value _ =>
                  testOther_agree htest (.inr rfl) hothers value)
  | _ => cases h <;> exact agree_some true

theorem testBranches_agree (hkey : key ∈ ["allOf", "anyOf", "oneOf"]) (decides : List Bool → Bool)
    (h : Option.Rel (AlikeAt related key) x x') (v : Json) :
    Agree (testBranches test decides x v) (testBranches test' decides x' v) := by
  have hother : ∀ key ∈ ["allOf", "anyOf", "oneOf"],
      key ∉ plainKeywords ∧ key ∉ schemaKeywords ∧ key ≠ "properties" ∧
        key ≠ "additionalProperties" := by decide
  obtain ⟨hplain, hschema, hproperties, hflag⟩ := hother key hkey
  cases h with
  | none => exact agree_some true
  | some h =>
      cases h with
      | plain _ hkey' => exact absurd hkey' hplain
      | flag _ hkey' => exact absurd hkey' hflag
      | schema hkey' => exact absurd hkey' hschema
      | list _ hschemas => exact tally_agree decides (hschemas.imp fun _ _ hs => htest _ _ hs v)
      | fields hkey' => exact absurd hkey' hproperties

theorem check_agree (dialect : Dialect) {keyword keyword' : String → Option Json}
    (h : ∀ key ∈ readKeywords, Option.Rel (AlikeAt related key) (keyword key) (keyword' key))
    (v : Json) : Agree (check test dialect keyword v) (check test' dialect keyword' v) := by
  have hplain (key : String) (hkey : key ∈ readKeywords) (hplain : key ∈ plainKeywords) :
      keyword key = keyword' key := eq_of_plain (h key hkey) hplain
  unfold check
  rw [hplain "type" (by decide) (by decide), hplain "enum" (by decide) (by decide),
    hplain "format" (by decide) (by decide), hplain "required" (by decide) (by decide),
    hplain "minItems" (by decide) (by decide)]
  refine tally_agree all (.cons (agree_some _) <| .cons (agree_some _) <| .cons (agree_some _) <|
    .cons (agree_some _) <| .cons (agree_some _) <| .cons ?_ <| .cons ?_ <| .cons ?_ <| .cons ?_ <|
    .cons ?_ .nil)
  · exact testFields_agree htest (h "properties" (by decide))
      (h "additionalProperties" (by decide)) v
  · exact testItems_agree htest (h "items" (by decide)) (h "additionalItems" (by decide)) v
  · exact testBranches_agree htest (by decide) all (h "allOf" (by decide)) v
  · exact testBranches_agree htest (by decide) any (h "anyOf" (by decide)) v
  · exact testBranches_agree htest (by decide) one (h "oneOf" (by decide)) v

end

/-! ## Definitions -/

/-- Each keyword that is not exempt holds the same on both sides, up to related schemas. -/
def LooksAlike (exempt : List String) (related : Json → Json → Prop) (d d' : Definition) : Prop :=
  ∀ key ∉ exempt, Option.Rel (AlikeAt related key) (d.find? key) (d'.find? key)

namespace LooksAlike

variable {exempt : List String} {related : Json → Json → Prop} {d d' : Definition} {key : String}
  {value value' : Json}

theorem empty : LooksAlike exempt related Dict.empty Dict.empty := fun _ _ => .none

theorem insert (h : LooksAlike exempt related d d') (hvalue : AlikeAt related key value value') :
    LooksAlike exempt related (d.insert key value) (d'.insert key value') := by
  intro other hother
  rw [Dict.find?_insert, Dict.find?_insert]
  split
  · rename_i heq
    subst heq
    exact .some hvalue
  · exact h other hother

theorem insertPlain (h : LooksAlike exempt related d d') (hkey : key ∈ plainKeywords)
    (value : Json) : LooksAlike exempt related (d.insert key value) (d'.insert key value) :=
  h.insert (.plain value hkey)

theorem insertIf (h : LooksAlike exempt related d d') {condition condition' : Bool}
    (hcondition : condition = condition')
    (hvalue : condition = true → AlikeAt related key value value') :
    LooksAlike exempt related (d.insertIf condition key value)
      (d'.insertIf condition' key value') := by
  subst hcondition
  cases condition with
  | false => exact h
  | true => exact h.insert (hvalue rfl)

theorem insertIfPlain (h : LooksAlike exempt related d d') (hkey : key ∈ plainKeywords)
    (condition : Bool) (value : Json) :
    LooksAlike exempt related (d.insertIf condition key value)
      (d'.insertIf condition key value) :=
  h.insertIf rfl fun _ => .plain value hkey

theorem setType (h : LooksAlike exempt related d d') (tag : String) :
    LooksAlike exempt related (d.setType tag) (d'.setType tag) :=
  h.insertPlain (by decide) _

theorem setTypes (h : LooksAlike exempt related d d') (tags : List String) :
    LooksAlike exempt related (d.setTypes tags) (d'.setTypes tags) := by
  unfold Definition.setTypes
  split
  · exact h
  · exact h.setType _
  · exact h.insertPlain (by decide) _

theorem contains_eq (h : LooksAlike exempt related d d') (hkey : key ∉ exempt) :
    d.contains key = d'.contains key := by
  have hrel := h key hkey
  rw [Definition.contains_eq_isSome, Definition.contains_eq_isSome]
  generalize d.find? key = x, d'.find? key = x' at hrel ⊢
  cases hrel <;> rfl

/-- A keyword that is neither plain nor holds schemas is on neither side. -/
theorem find?_eq_none (h : LooksAlike exempt related d d') (hkey : key ∉ exempt)
    (hplain : key ∉ plainKeywords) (hschema : key ∉ schemaKeywords) (hlist : key ∉ listKeywords)
    (hproperties : key ≠ "properties") : d.find? key = none ∧ d'.find? key = none := by
  have hrel := h key hkey
  generalize d.find? key = x, d'.find? key = x' at hrel ⊢
  cases hrel with
  | none => exact ⟨rfl, rfl⟩
  | some hrel =>
      cases hrel with
      | plain _ hkey' => exact absurd hkey' hplain
      | flag _ hkey' => exact absurd (by rw [hkey']; decide) hschema
      | schema hkey' => exact absurd hkey' hschema
      | list hkey' => exact absurd hkey' hlist
      | fields hkey' => exact absurd hkey' hproperties

theorem bareType_eq (h : LooksAlike [] related d d') {tag : String}
    (hbare : d.bareType = some tag) : d'.bareType = some tag := by
  obtain ⟨htype, hothers⟩ := Definition.bareType_eq_some_iff.1 hbare
  have hnone {key : String} (hkey : d.find? key = none) : d'.find? key = none := by
    have hrel := h key List.not_mem_nil
    rw [hkey] at hrel
    generalize d'.find? key = x at hrel
    cases hrel
    rfl
  refine Definition.bareType_eq_some_iff.2 ⟨?_, fun key hkey => hnone (hothers key hkey)⟩
  rw [← eq_of_plain (h "type" List.not_mem_nil) (by decide), htype]

end LooksAlike

/-! ## Verdicts -/

/-- Within some depth the schemas have the same verdict on each value. -/
def AgreeAt (dialect : Dialect) (definitions definitions' : Entries String Json) (depth : Nat)
    (schema schema' : Json) : Prop :=
  ∀ v, Agree (validate dialect definitions depth schema v)
    (validate dialect definitions' depth schema' v)

variable {dialect : Dialect} {definitions definitions' : Entries String Json} {depth depth' : Nat}

theorem AgreeAt.mono {schema schema' : Json}
    (h : AgreeAt dialect definitions definitions' depth schema schema') (hle : depth ≤ depth') :
    AgreeAt dialect definitions definitions' depth' schema schema' := by
  intro v
  obtain ⟨answer, hschema, hschema'⟩ := h v
  exact ⟨answer, validate_stays_from hle hschema, validate_stays_from hle hschema'⟩

theorem LooksAlike.agreeAt {exempt : List String} {d d' : Definition}
    (h : LooksAlike exempt (AgreeAt dialect definitions definitions' depth) d d')
    (hexempt : ∀ key ∈ readKeywords, key ∉ exempt) :
    AgreeAt dialect definitions definitions' (depth + 1) d.toJson d'.toJson := by
  obtain ⟨href, href'⟩ := h.find?_eq_none (hexempt "$ref" (by decide)) (by decide) (by decide)
    (by decide) (by decide)
  intro v
  rw [validate_of_no_reference href, validate_of_no_reference href']
  exact check_agree (fun _ _ hschema => hschema) dialect
    (fun key hkey => h key (hexempt key hkey)) v

/-- Both documents reach a verdict on the value, and it is the same. -/
theorem AgreeAt.documents {d d' : Definition}
    (h : AgreeAt dialect d.definitions d'.definitions depth d.toJson d'.toJson) (v : Json) :
    Accepts dialect d v ∧ Accepts dialect d' v ∨ Rejects dialect d v ∧ Rejects dialect d' v := by
  obtain ⟨answer, hd, hd'⟩ := h v
  cases answer with
  | true => exact .inl ⟨⟨depth, hd⟩, depth, hd'⟩
  | false => exact .inr ⟨⟨depth, hd⟩, depth, hd'⟩

end TypeSchema.Validation
