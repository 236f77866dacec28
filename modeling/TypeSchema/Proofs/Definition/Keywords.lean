import TypeSchema.Definition.EnumDeclaration

/-!
# Keywords of definitions

What the operations on definitions leave alone: most of them store one keyword, and a definition
that says nothing but its type has no other keyword than that.  Two keywords link definitions, the
reference and the definitions brought along; hardly anything ever stores them.
-/

namespace TypeSchema

def Json.reference? (value : Json) : Option String := (value.field? "$ref").bind Json.str?

namespace Definition

variable {d : Definition} {key : String}

/-! ## Look-up -/

theorem find?_insertIf_of_ne (d : Definition) (condition : Bool) {other : String}
    (h : key ≠ other) (value : Json) :
    (d.insertIf condition other value).find? key = d.find? key := by
  unfold insertIf
  split
  · exact Dict.find?_insert_of_ne d h value
  · rfl

theorem find?_insertIf_self (d : Definition) (condition : Bool) (key : String) (value : Json) :
    (d.insertIf condition key value).find? key = if condition then some value else d.find? key := by
  unfold insertIf
  split
  · exact Dict.find?_insert_self d key value
  · rfl

theorem find?_setType_of_ne (d : Definition) (h : key ≠ "type") (tag : String) :
    (d.setType tag).find? key = d.find? key :=
  Dict.find?_insert_of_ne d h _

theorem hasType_eq_false_iff : d.hasType = false ↔ d.find? "type" = none := by
  rw [hasType, Dict.contains, Entries.contains, Option.isSome_eq_false_iff,
    Option.isNone_iff_eq_none]
  rfl

theorem contains_eq_isSome (d : Definition) (key : String) :
    d.contains key = (d.find? key).isSome := rfl

theorem hasType_insertIf_of_ne (d : Definition) (condition : Bool) (h : key ≠ "type")
    (value : Json) : (d.insertIf condition key value).hasType = d.hasType := by
  rw [hasType, hasType, contains_eq_isSome, contains_eq_isSome,
    find?_insertIf_of_ne d condition h.symm]

/-! ## Links -/

def reference? (d : Definition) : Option String := d.toJson.reference?

/-- The definitions that a definition brings along. -/
def definitions (d : Definition) : Entries String Json :=
  match d.find? "definitions" with
  | some (.obj fields) => fields
  | _ => []

theorem reference?_eq (d : Definition) : d.reference? = (d.find? "$ref").bind Json.str? := rfl

theorem reference?_eq_some_iff {ref : String} :
    d.reference? = some ref ↔ d.find? "$ref" = some (.str ref) := by
  rw [reference?_eq, Option.bind_eq_some_iff]
  constructor
  · rintro ⟨value, hvalue, htext⟩
    cases value <;> cases htext
    exact hvalue
  · intro h
    exact ⟨_, h, rfl⟩

@[simp] theorem definitions_insert_self (d : Definition) (all : Dict String Json) :
    definitions (d.insert "definitions" (.ofDict all)) = all.entries := by
  rw [definitions, Dict.find?_insert_self]
  rfl

/-- The definitions agree in the keywords that link definitions. -/
structure SameLinks (d d' : Definition) : Prop where
  reference : d'.find? "$ref" = d.find? "$ref"
  definitions : d'.find? "definitions" = d.find? "definitions"

def isLink (key : String) : Bool := key == "$ref" || key == "definitions"

namespace SameLinks

variable {d' : Definition}

theorem refl (d : Definition) : SameLinks d d := ⟨rfl, rfl⟩

theorem reference?_eq (h : SameLinks d d') : d'.reference? = d.reference? := by
  rw [Definition.reference?_eq, h.reference, ← Definition.reference?_eq]

theorem definitions_eq (h : SameLinks d d') : d'.definitions = d.definitions := by
  rw [Definition.definitions, h.definitions]
  rfl

theorem insert (h : SameLinks d d') (hkey : isLink key = false) (value : Json) :
    SameLinks d (d'.insert key value) := by
  simp only [isLink, Bool.or_eq_false_iff, beq_eq_false_iff_ne] at hkey
  exact ⟨(Dict.find?_insert_of_ne _ hkey.1.symm value).trans h.reference,
    (Dict.find?_insert_of_ne _ hkey.2.symm value).trans h.definitions⟩

theorem insertIf (h : SameLinks d d') (condition : Bool) (hkey : isLink key = false)
    (value : Json) : SameLinks d (d'.insertIf condition key value) := by
  unfold Definition.insertIf
  split
  · exact h.insert hkey value
  · exact h

theorem setType (h : SameLinks d d') (tag : String) : SameLinks d (d'.setType tag) :=
  h.insert rfl _

theorem setTypes (h : SameLinks d d') (tags : List String) : SameLinks d (d'.setTypes tags) := by
  unfold Definition.setTypes
  split
  · exact h
  · exact h.setType _
  · exact h.insert rfl _

end SameLinks

theorem reference?_of_insert {value : Json} {ref : String}
    (hvalue : key = "$ref" → ∀ text, value ≠ .str text)
    (h : reference? (d.insert key value) = some ref) : d.reference? = some ref := by
  rw [reference?_eq_some_iff, Dict.find?_insert] at h
  split at h
  · rename_i hkey
    exact absurd (Option.some.inj h) (hvalue hkey.symm ref)
  · exact reference?_eq_some_iff.2 h

theorem mem_definitions_insert {value : Json} {field : String × Json}
    (h : field ∈ definitions (d.insert key value)) :
    (key = "definitions" ∧ ∃ fields, value = .obj fields ∧ field ∈ fields) ∨
      field ∈ d.definitions := by
  unfold definitions at h ⊢
  rw [Dict.find?_insert] at h
  split at h
  · rename_i fields heq
    split at heq
    · rename_i hkey
      cases heq
      exact .inl ⟨hkey.symm, fields, rfl, h⟩
    · rw [heq]
      exact .inr h
  · exact absurd h List.not_mem_nil

theorem reference?_merge {later : Definition} {ref : String}
    (h : reference? (d.merge later) = some ref) :
    later.reference? = some ref ∨ d.reference? = some ref := by
  simp only [reference?_eq_some_iff, Dict.find?_merge, Option.or_eq_some_iff] at h ⊢
  exact h.imp_right And.right

theorem mem_definitions_merge {later : Definition} {field : String × Json}
    (h : field ∈ definitions (d.merge later)) :
    field ∈ later.definitions ∨ field ∈ d.definitions := by
  unfold definitions at h ⊢
  rw [Dict.find?_merge] at h
  cases hlater : later.find? "definitions" with
  | none =>
      rw [hlater, Option.none_or] at h
      exact .inr h
  | some value =>
      rw [hlater, Option.some_or] at h
      exact .inl h

/-! ## Bare types -/

theorem bareType_eq_some_iff {tag : String} :
    d.bareType = some tag ↔
      d.find? "type" = some (.str tag) ∧ ∀ key ≠ "type", d.find? key = none := by
  obtain ⟨entries, nodup⟩ := d
  constructor
  · intro h
    unfold bareType at h
    split at h
    · rename_i tag' heq
      cases h
      cases heq
      refine ⟨rfl, fun key hkey => ?_⟩
      simp [Dict.find?, Entries.find?, hkey.symm]
    · cases h
  · rintro ⟨htype, hother⟩
    have hkeys : ∀ entry ∈ entries, entry.1 = "type" := by
      intro entry hentry
      refine Decidable.byContradiction fun hne => ?_
      have hfind := hother entry.1 hne
      rw [Dict.mem_entries_iff (d := ⟨entries, nodup⟩) |>.1 hentry] at hfind
      cases hfind
    have hmem := Entries.mem_of_find?_eq_some htype
    cases entries with
    | nil => exact absurd hmem List.not_mem_nil
    | cons first rest =>
        cases rest with
        | nil =>
            cases List.mem_singleton.1 hmem
            rfl
        | cons second rest =>
            have hfirst := hkeys first List.mem_cons_self
            have hsecond := hkeys second (List.mem_cons_of_mem _ List.mem_cons_self)
            simp [hfirst, hsecond] at nodup

theorem bareType_ne_of_find? {value : Json} (h : d.find? key = some value) (hkey : key ≠ "type")
    (tag : String) : d.bareType ≠ some tag := by
  intro hbare
  rw [(bareType_eq_some_iff.1 hbare).2 key hkey] at h
  cases h

theorem bareType_insert_of_ne (d : Definition) (hkey : key ≠ "type") (value : Json) (tag : String) :
    bareType (d.insert key value) ≠ some tag :=
  bareType_ne_of_find? (Dict.find?_insert_self d key value) hkey tag

theorem bareType_setType {tag tag' : String} (h : (d.setType tag).bareType = some tag') :
    tag' = tag := by
  have htype := (bareType_eq_some_iff.1 h).1
  rw [setType, Dict.find?_insert_self] at htype
  cases htype
  rfl

theorem bareType_ne_of_hasType (h : d.hasType = false) (tag : String) : d.bareType ≠ some tag := by
  intro hbare
  have htype := (bareType_eq_some_iff.1 hbare).1
  rw [hasType_eq_false_iff.1 h] at htype
  cases htype

theorem bareType_setTypes {tags : List String} {tag : String} (hd : d.hasType = false)
    (h : (d.setTypes tags).bareType = some tag) : tags = [tag] := by
  unfold setTypes at h
  split at h
  · exact absurd h (bareType_ne_of_hasType hd tag)
  · rw [bareType_setType h]
  · have htype := (bareType_eq_some_iff.1 h).1
    rw [Dict.find?_insert_self] at htype
    cases htype

theorem bareType_of_merge {later : Definition} {tag : String} (hd : d.hasType = false)
    (h : bareType (d.merge later) = some tag) : later.bareType = some tag := by
  obtain ⟨htype, hothers⟩ := bareType_eq_some_iff.1 h
  rw [Dict.find?_merge, hasType_eq_false_iff.1 hd, Option.or_none] at htype
  refine bareType_eq_some_iff.2 ⟨htype, fun key hkey => ?_⟩
  have hother := hothers key hkey
  rw [Dict.find?_merge, Option.or_eq_none_iff] at hother
  exact hother.1

/-! ## Admitting null -/

/-- The tags of a `type`: the items of a list, or the value itself. -/
def tagsOf : Json → List Json
  | .arr tags => tags
  | tag => [tag]

/-- Null is among the tags of a plain definition, or one of the branches of a union. -/
inductive ListsNull (d : Definition) : Prop
  | tag {value : Json} (hplain : d.isPlain = true) (htype : d.find? "type" = some value)
      (hnull : (tagsOf value).any (·.same (.str "null")) = true)
  | branch {keyword : String} {branches : List Json}
      (hunion : d.unionKeyword = some (keyword, branches))
      (hnull : branches.any isNullBranch = true)

/-- What widening makes of a definition. -/
inductive Widens (d : Definition) : Definition → Prop
  | listed (h : ListsNull d) : Widens d d
  | typed {value : Json} (hplain : d.isPlain = true) (htype : d.find? "type" = some value) :
      Widens d (d.insert "type" (.arr (tagsOf value ++ [.str "null"])))
  | branched {keyword : String} {branches : List Json}
      (hunion : d.unionKeyword = some (keyword, branches)) :
      Widens d (d.insert keyword (.arr (branches ++ [nullBranch])))
  | wrapped : Widens d (Dict.empty.insert "anyOf" (.arr [d.toJson, nullBranch]))

theorem addNullBranch_widens (d : Definition) : Widens d d.addNullBranch := by
  unfold addNullBranch
  split
  · rename_i keyword branches hunion
    split
    · rename_i hnull
      exact .listed (.branch hunion hnull)
    · exact .branched hunion
  · exact .wrapped

theorem makeNullable_widens (d : Definition) : Widens d d.makeNullable := by
  unfold makeNullable
  split
  · rename_i hplain
    split
    · rename_i tag htype
      split
      · rename_i hnull
        exact .listed (.tag hplain htype (by simp [tagsOf, Json.same, hnull]))
      · exact .typed hplain htype
    · rename_i tags htype
      split
      · rename_i hnull
        exact .listed (.tag hplain htype hnull)
      · exact .typed hplain htype
    · exact addNullBranch_widens d
  · exact addNullBranch_widens d

theorem makeNullable_cases (d : Definition) :
    d.makeNullable = d ∨
      (∃ keyword items, (keyword = "type" ∨ keyword = "oneOf" ∨ keyword = "anyOf") ∧
        d.makeNullable = d.insert keyword (.arr items)) ∨
      ∃ items, d.makeNullable = Dict.empty.insert "anyOf" (.arr items) := by
  have hwidens := makeNullable_widens d
  generalize d.makeNullable = d' at hwidens ⊢
  cases hwidens with
  | listed _ => exact .inl rfl
  | typed _ _ => exact .inr (.inl ⟨"type", _, .inl rfl, rfl⟩)
  | branched hunion => exact .inr (.inl ⟨_, _, .inr (unionKeyword_eq_some hunion).1, rfl⟩)
  | wrapped => exact .inr (.inr ⟨_, rfl⟩)

theorem find?_of_makeNullable {value : Json} (hkey : key ≠ "type" ∧ key ≠ "oneOf" ∧ key ≠ "anyOf")
    (h : d.makeNullable.find? key = some value) : d.find? key = some value := by
  rcases makeNullable_cases d with heq | ⟨keyword, items, hkeyword, heq⟩ | ⟨items, heq⟩
  · rwa [heq] at h
  · rw [heq, Dict.find?_insert_of_ne] at h
    · exact h
    · rcases hkeyword with rfl | rfl | rfl
      · exact hkey.1
      · exact hkey.2.1
      · exact hkey.2.2
  · rw [heq, Dict.find?_insert_of_ne _ hkey.2.2] at h
    cases h

theorem bareType_of_makeNullable {tag : String} (h : d.makeNullable.bareType = some tag) :
    d.bareType = some tag := by
  rcases makeNullable_cases d with heq | ⟨keyword, items, hkeyword, heq⟩ | ⟨items, heq⟩
  · rwa [heq] at h
  · rw [heq] at h
    rcases hkeyword with rfl | rfl | rfl
    · have htype := (bareType_eq_some_iff.1 h).1
      rw [Dict.find?_insert_self] at htype
      cases htype
    · exact absurd h (bareType_insert_of_ne d (by decide) _ _)
    · exact absurd h (bareType_insert_of_ne d (by decide) _ _)
  · rw [heq] at h
    exact absurd h (bareType_insert_of_ne _ (by decide) _ _)

end Definition

end TypeSchema
