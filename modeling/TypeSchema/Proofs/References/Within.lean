import TypeSchema.Proofs.Annotation.Written
import TypeSchema.Proofs.References.Positions
import TypeSchema.Proofs.Schema.TypeDescribed

/-!
# References of definitions

A definition is put together field by field, and most fields hold no schema.  So its references lead
to given names if those of the definitions that went into it do, and annotations, which write whole
values of their own, bring in no references.
-/

namespace TypeSchema

namespace Json

/-- What stands under the keyword neither is a reference nor holds a schema. -/
def isPlainKeyword (keyword : String) : Bool :=
  keyword != "$ref" && !namedSchemas.contains keyword && !listedSchemas.contains keyword

theorem subschemas_plain {keyword : String} (h : isPlainKeyword keyword = true) (value : Json) :
    subschemas keyword value = [] := by
  simp only [isPlainKeyword, Bool.and_eq_true, Bool.not_eq_true', List.contains_eq_mem,
    decide_eq_false_iff_not] at h
  unfold subschemas
  rw [if_neg h.1.2, if_neg h.2]

theorem fieldWithin_plain {names : List String} {keyword : String}
    (h : isPlainKeyword keyword = true) (value : Json) : FieldWithin names keyword value := by
  refine ⟨fun hkey => ?_, fun part hpart => ?_⟩
  · rw [hkey] at h
    cases h
  · rw [subschemas_plain h value] at hpart
    exact absurd hpart List.not_mem_nil

end Json

open Json (FieldWithin fieldWithin_plain fieldWithin_arr fieldWithin_schema fieldWithin_named
  fieldWithin_of_lacksText)

namespace Definition

def RefersWithin (names : List String) (d : Definition) : Prop := d.toJson.RefersWithin names

variable {names : List String} {d : Definition}

theorem refersWithin_iff :
    RefersWithin names d ↔ ∀ field ∈ d.entries, FieldWithin names field.1 field.2 :=
  Json.refersWithin_obj

theorem refersWithin_empty : RefersWithin names Dict.empty :=
  refersWithin_iff.2 fun _ h => absurd h List.not_mem_nil

theorem refersWithin_reference {name : String} :
    RefersWithin names (reference name) ↔ name ∈ names := by
  rw [refersWithin_iff]
  constructor
  · intro h
    obtain ⟨name', hname', href⟩ := (h _ List.mem_cons_self).1 rfl _ rfl
    exact (String.append_right_inj _).1 href ▸ hname'
  · intro h field hfield
    cases List.mem_singleton.1 hfield
    refine ⟨fun _ ref href => ⟨name, h, ?_⟩, fun _ hpart => absurd hpart List.not_mem_nil⟩
    cases href
    rfl

namespace RefersWithin

theorem mono {names' : List String} (hsub : names ⊆ names') (h : RefersWithin names d) :
    RefersWithin names' d :=
  Json.RefersWithin.mono hsub h

theorem field (h : RefersWithin names d) {key : String} {value : Json}
    (hfield : d.find? key = some value) : FieldWithin names key value :=
  refersWithin_iff.1 h _ (Dict.mem_entries_iff.2 hfield)

theorem insert (h : RefersWithin names d) {key : String} {value : Json}
    (hfield : FieldWithin names key value) : RefersWithin names (d.insert key value) := by
  refine refersWithin_iff.2 fun field hmem => ?_
  rcases Entries.mem_of_mem_insert hmem with rfl | hold
  · exact hfield
  · exact refersWithin_iff.1 h field hold

theorem plain (h : RefersWithin names d) {key : String} {value : Json}
    (hkey : Json.isPlainKeyword key = true) : RefersWithin names (d.insert key value) :=
  h.insert (fieldWithin_plain hkey value)

theorem merge (h : RefersWithin names d) {later : Definition} (hlater : RefersWithin names later) :
    RefersWithin names (d.merge later) := by
  refine refersWithin_iff.2 fun field hmem => ?_
  rcases Entries.mem_of_mem_merge hmem with hold | hnew
  · exact refersWithin_iff.1 h field hold
  · exact refersWithin_iff.1 hlater field hnew

theorem insertIf (h : RefersWithin names d) (condition : Bool) {key : String} {value : Json}
    (hfield : FieldWithin names key value) :
    RefersWithin names (d.insertIf condition key value) := by
  unfold Definition.insertIf
  split
  · exact h.insert hfield
  · exact h

theorem setType (h : RefersWithin names d) (tag : String) : RefersWithin names (d.setType tag) :=
  h.plain rfl

theorem setTypes (h : RefersWithin names d) (tags : List String) :
    RefersWithin names (d.setTypes tags) := by
  unfold Definition.setTypes
  split
  · exact h
  · exact h.setType _
  · exact h.plain rfl

/-! ## Annotations -/

theorem applyKeyword (h : RefersWithin names d) {keyword : String} {value : Json}
    (hvalue : Json.LacksText "$ref" (keyword, value)) :
    RefersWithin names (Annotations.applyKeyword d keyword value) := by
  unfold Annotations.applyKeyword
  split
  · rename_i existing nested hexisting
    exact h.insert ((h.field hexisting).merge hvalue.2)
  · exact h.insert (fieldWithin_of_lacksText hvalue.1 hvalue.2)

theorem applyTo (h : RefersWithin names d) {notes : Annotations}
    (hnotes : (Json.ofDict notes.keywords).lacksText "$ref" = true) :
    RefersWithin names (notes.applyTo d) := by
  unfold Annotations.applyTo
  refine List.foldlRecOn _ _ ?_ fun d hd entry hentry =>
    hd.applyKeyword (Json.lacksText_obj.1 hnotes entry hentry)
  split
  · exact h.plain rfl
  · exact h

/-! ## Admitting null -/

theorem nullBranch : Json.RefersWithin names Definition.nullBranch :=
  refersWithin_empty.setType "null"

theorem branch (h : RefersWithin names d) {keyword : String} {branches : List Json} {branch : Json}
    (hunion : d.unionKeyword = some (keyword, branches)) (hbranch : branch ∈ branches) :
    branch.RefersWithin names := by
  obtain ⟨hkeyword, hfield⟩ := unionKeyword_eq_some hunion
  refine (h.field hfield).2 branch ?_
  rcases hkeyword with rfl | rfl <;> exact hbranch

theorem widens (h : RefersWithin names d) {d' : Definition} (hwidens : d.Widens d') :
    RefersWithin names d' := by
  cases hwidens with
  | listed _ => exact h
  | typed _ _ => exact h.plain rfl
  | branched hunion =>
      refine h.insert (fieldWithin_arr fun branch hbranch => ?_)
      rcases List.mem_append.1 hbranch with hold | hnew
      · exact h.branch hunion hold
      · cases List.mem_singleton.1 hnew
        exact nullBranch
  | wrapped =>
      refine refersWithin_empty.insert (fieldWithin_arr fun branch hbranch => ?_)
      rcases List.mem_cons.1 hbranch with rfl | hnull
      · exact h
      · cases List.mem_singleton.1 hnull
        exact nullBranch

theorem makeNullable (h : RefersWithin names d) : RefersWithin names d.makeNullable :=
  h.widens (makeNullable_widens d)

end RefersWithin

end Definition

/-! ## What types are made of -/

namespace Schema

variable {env : Environment} {names : List String} {node : TypeNode} {ctx : Context}
  {made : List Described} {d d' : Definition}

def AllWithin (names : List String) (made : List Described) : Prop :=
  ∀ m ∈ made, m.definition.RefersWithin names

theorem AllWithin.definitions (h : AllWithin names made) :
    ∀ item ∈ Schema.definitions made, item.RefersWithin names := by
  intro item hitem
  obtain ⟨m, hm, rfl⟩ := List.mem_map.1 hitem
  exact h m hm

theorem AllWithin.of_append {made' : List Described} (h : AllWithin names (made ++ made')) :
    AllWithin names made ∧ AllWithin names made' :=
  ⟨fun m hm => h m (List.mem_append_left _ hm), fun m hm => h m (List.mem_append_right _ hm)⟩

theorem AllWithin.of_cons {m : Described} (h : AllWithin names (m :: made)) :
    m.definition.RefersWithin names ∧ AllWithin names made :=
  ⟨h m List.mem_cons_self, fun m' hm => h m' (List.mem_cons_of_mem _ hm)⟩

theorem sorts_within {parts parts' : UnionParts} {members : List TypeId}
    (h : Sorts env parts members made parts') (hmade : AllWithin names made)
    (hparts : ∀ s ∈ parts.schemas, s.RefersWithin names) :
    ∀ s ∈ parts'.schemas, s.RefersWithin names := by
  induction h with
  | nil => exact hparts
  | value _ _ _ ih => exact ih hmade (by simpa using hparts)
  | absent _ _ _ ih => exact ih hmade.of_cons.2 hparts
  | tag _ _ _ _ ih => exact ih hmade.of_cons.2 (by simpa using hparts)
  | schema _ _ _ ih =>
      refine ih hmade.of_cons.2 fun s hs => ?_
      rcases List.mem_append.1 hs with hold | hnew
      · exact hparts s hold
      · rw [List.mem_singleton.1 hnew]
        exact hmade.of_cons.1

theorem enumSchema_within (values : List Json) :
    (UnionParts.enumSchema values).RefersWithin names := by
  unfold UnionParts.enumSchema
  refine Definition.RefersWithin.plain ?_ rfl
  split
  · exact Definition.refersWithin_empty.setType _
  · exact Definition.refersWithin_empty

theorem union_within {parts : UnionParts} (keyword : UnionKeyword)
    (h : ∀ s ∈ parts.schemas, s.RefersWithin names) (hd : d.RefersWithin names) :
    (parts.write keyword d).RefersWithin names := by
  have hbranches : ∀ branch ∈ parts.branches, branch.RefersWithin names := by
    intro branch hbranch
    obtain hschema | ⟨values, rfl⟩ | rfl := mem_branches hbranch
    · exact h branch hschema
    · exact enumSchema_within values
    · exact Definition.refersWithin_empty.setTypes _
  unfold UnionParts.write
  split
  · exact hd
  · rename_i only heq
    exact hd.merge (hbranches only (by rw [heq]; exact List.mem_singleton.2 rfl))
  · refine hd.insert (fieldWithin_arr fun item hitem => ?_)
    obtain ⟨branch, hbranch, rfl⟩ := List.mem_map.1 hitem
    exact hbranches branch hbranch

/-! ## Objects -/

theorem withDefault_within (initializer : Option Initializer) (h : d.RefersWithin names) :
    (withDefault initializer d).RefersWithin names := by
  unfold withDefault
  split
  · exact h.plain rfl
  · exact h

theorem ofProperty_within {id : SymbolId} (h : OfProperty env id made (some d))
    (hmade : AllWithin names made) : d.RefersWithin names := by
  cases h with
  | untyped => exact Definition.refersWithin_empty
  | kept => exact withDefault_within _ hmade.of_cons.1

theorem gathers_within {parts parts' : ObjectParts} {properties : List SymbolId}
    (h : Gathers env parts properties made parts') (hmade : AllWithin names made)
    (hparts : ∀ field ∈ parts.properties.entries, field.2.RefersWithin names) :
    ∀ field ∈ parts'.properties.entries, field.2.RefersWithin names := by
  induction h with
  | nil => exact hparts
  | dropped _ _ ih => exact ih hmade.of_append.2 hparts
  | added _ _ hd _ ih =>
      refine ih hmade.of_append.2 fun field hfield => ?_
      rcases Entries.mem_of_mem_insert hfield with rfl | hold
      · exact ofProperty_within hd hmade.of_append.1
      · exact hparts field hold

theorem object_within {parts : ObjectParts} (settings : Settings)
    (h : ∀ field ∈ parts.properties.entries, field.2.RefersWithin names)
    (hd : d.RefersWithin names) : (parts.write settings d).RefersWithin names := by
  have hproperties : FieldWithin names "properties" (.ofDict parts.properties) :=
    fieldWithin_named (by decide) h
  have hextra : FieldWithin names "additionalProperties" (.bool false) :=
    fieldWithin_of_lacksText (by simp) rfl
  have htype : Definition.RefersWithin names (if d.hasType then d else d.setType "object") := by
    split
    · exact hd
    · exact hd.setType "object"
  exact ((((htype.insertIf _ hproperties).insertIf _ (fieldWithin_plain rfl _)).insertIf _
    hextra).insertIf _ (fieldWithin_plain rfl _)).insertIf _ (fieldWithin_plain rfl _)

theorem rendered_within {shape : Shape} (h : Rendered env node ctx d shape made d')
    (hmade : AllWithin names made) (hd : d.RefersWithin names) : d'.RefersWithin names := by
  have hlist (keyword : String) : FieldWithin names keyword (.arr (definitions made)) :=
    fieldWithin_arr hmade.definitions
  have hempty : FieldWithin names "properties" (.obj []) :=
    fieldWithin_of_lacksText (by simp) rfl
  cases h with
  | union hsorts =>
      exact union_within _ (sorts_within hsorts hmade fun _ hs => absurd hs List.not_mem_nil) hd
  | intersection => exact hd.insert (hlist "allOf")
  | tuple =>
      have hrest : Definition.RefersWithin names
          (Dict.empty.insert "anyOf" (.arr (definitions made))) :=
        Definition.refersWithin_empty.insert (hlist "anyOf")
      exact (((hd.setType "array").plain rfl).insert (hlist "items")).insert
        (fieldWithin_schema (by decide) hrest)
  | primitive tag => exact hd.setType tag
  | literal value => exact (hd.setType _).plain rfl
  | array element items =>
      exact (hd.setType "array").insert (fieldWithin_schema (by decide) hmade.of_cons.1)
  | date => exact (hd.setType "string").plain rfl
  | nonPrimitive =>
      exact ((hd.setType "object").insert hempty).insert (fieldWithin_of_lacksText (by simp) rfl)
  | unconstrained => exact hd
  | unsupported => exact hd
  | enum declaration => exact (hd.setTypes _).insertIf _ (fieldWithin_plain rfl _)
  | emptyObject => exact (hd.setType "object").insert hempty
  | typeof => exact hd.plain rfl
  | function => exact object_within _ (fun _ h => absurd h List.not_mem_nil) hd
  | map key value items =>
      cases key with
      | string =>
          exact (hd.setType "object").insert (fieldWithin_schema (by decide) hmade.of_cons.1)
      | number =>
          exact (hd.setType "array").insert (fieldWithin_schema (by decide) hmade.of_cons.1)
  | abstract => exact hd.insert (hlist "oneOf")
  | object hgathers =>
      exact object_within _ (gathers_within hgathers hmade fun _ h => absurd h List.not_mem_nil) hd

theorem completed_within (h : Completed env node ctx d made d') (hmade : AllWithin names made)
    (hd : d.RefersWithin names) : d'.RefersWithin names := by
  cases h with
  | annotated => exact hd
  | shaped _ _ hrendered => exact rendered_within hrendered hmade hd

end Schema

end TypeSchema
