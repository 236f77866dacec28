import TypeSchema.Proofs.Validation.Nullable

/-!
# Widening by null

Widening leaves alone what lists null already, and else replaces one keyword or wraps the whole
definition.  Either way it changes the verdict on null only, whatever the keywords that widening
does not know demand, and a definition that is widened lists null.
-/

namespace TypeSchema

namespace Definition

variable {d d' : Definition} {keyword : String} {branches : List Json} {value : Json}

/-! ## Widening twice -/

theorem keys_insert_of_find? (h : d.find? keyword = some value) (new : Json) :
    Dict.keys (d.insert keyword new) = d.keys := by
  rw [Dict.keys_insert, if_pos (Dict.mem_keys_iff.2 ⟨value, h⟩)]

theorem unionKeyword_insert (h : d.unionKeyword = some (keyword, branches))
    (branches' : List Json) :
    unionKeyword (d.insert keyword (.arr branches')) = some (keyword, branches') := by
  rcases (unionKeyword_eq_some h).1 with rfl | rfl
  · simp [unionKeyword]
  · have hother : Dict.find? (d.insert "anyOf" (.arr branches')) "oneOf" = d.find? "oneOf" :=
      Dict.find?_insert_of_ne _ (by decide) _
    have hunlisted (others : List Json) : d.find? "oneOf" ≠ some (.arr others) := by
      intro hothers
      simp [unionKeyword, hothers] at h
    simp only [unionKeyword, List.findSome?_cons, hother, Dict.find?_insert_self]

theorem Widens.listsNull (h : Widens d d') : ListsNull d' := by
  cases h with
  | listed h => exact h
  | typed hplain htype =>
      refine .tag ?_ (Dict.find?_insert_self _ _ _) (by simp [tagsOf, Json.same])
      rw [isPlain, keys_insert_of_find? htype]
      exact hplain
  | branched hunion =>
      refine .branch (unionKeyword_insert hunion _) ?_
      rw [List.any_append, Bool.or_eq_true]
      exact .inr rfl
  | wrapped =>
      have hunion : unionKeyword (Dict.empty.insert "anyOf" (.arr [d.toJson, nullBranch])) =
          some ("anyOf", [d.toJson, nullBranch]) := rfl
      refine .branch hunion ?_
      rw [List.any_cons, Bool.or_eq_true]
      exact .inr rfl

theorem ListsNull.makeNullable (h : ListsNull d) : d.makeNullable = d := by
  cases h with
  | @tag value hplain htype hnull =>
      have htag : d.typeTag = some value := htype
      rw [Definition.makeNullable, if_pos hplain, htag]
      cases value with
      | str tag =>
          have htag : tag = "null" := by simpa [tagsOf, Json.same] using hnull
          simp only [htag, if_pos]
      | arr tags => simp only [tagsOf] at hnull; simp only [hnull, if_pos]
      | _ => simp [tagsOf, Json.same] at hnull
  | branch hunion hnull =>
      have hplain : ¬ d.isPlain = true := fun hplain => by
        rw [unionKeyword_of_isPlain hplain] at hunion
        cases hunion
      rw [Definition.makeNullable, if_neg hplain, addNullBranch, hunion]
      simp only [hnull, if_pos]

theorem makeNullable_idempotent (d : Definition) : d.makeNullable.makeNullable = d.makeNullable :=
  (makeNullable_widens d).listsNull.makeNullable

/-! ## What widening keeps -/

/-- One value is replaced, and the keys and all other values stay. -/
structure Replaces (d d' : Definition) (key : String) (old new : Json) : Prop where
  keys : d'.keys = d.keys
  before : d.find? key = some old
  after : d'.find? key = some new
  others : ∀ other, other ≠ key → d'.find? other = d.find? other

theorem replaces_insert (h : d.find? keyword = some value) (new : Json) :
    Replaces d (d.insert keyword new) keyword value new where
  keys := keys_insert_of_find? h new
  before := h
  after := Dict.find?_insert_self _ _ _
  others _ hother := Dict.find?_insert_of_ne _ hother _

/-- No key and no value gets lost or is there twice. -/
inductive Conserves (d d' : Definition) : Prop
  | same (h : d' = d)
  | typed {value : Json}
      (h : Replaces d d' "type" value (.arr (tagsOf value ++ [.str "null"])))
  | branched {keyword : String} {branches : List Json}
      (hkeyword : keyword = "oneOf" ∨ keyword = "anyOf")
      (h : Replaces d d' keyword (.arr branches) (.arr (branches ++ [nullBranch])))
  | wrapped (h : d'.entries = [("anyOf", .arr [d.toJson, nullBranch])])

theorem Widens.conserves (h : Widens d d') : Conserves d d' := by
  cases h with
  | listed _ => exact .same rfl
  | typed _ htype => exact .typed (replaces_insert htype _)
  | branched hunion =>
      obtain ⟨hkeyword, hfind⟩ := unionKeyword_eq_some hunion
      exact .branched hkeyword (replaces_insert hfind _)
  | wrapped => exact .wrapped rfl

end Definition

namespace Validation

/-! ## Verdicts -/

def Dialect.fitsTag (dialect : Dialect) (v tag : Json) : Bool := tag.str?.any (dialect.hasType v)

/-- The keywords whose meaning is known, with a value that they can have. -/
def isRead (field : String × Json) : Bool :=
  field.1 == "type" || (field.2.isArr && field.1 ∈ ["enum", "oneOf", "anyOf"])

/-- What the other keywords of a schema say together, if there are any. -/
def fitsOthers (other : Json → Json → Bool) (fields : List (String × Json)) (v : Json) : Bool :=
  let others := fields.filter (!isRead ·)
  others.isEmpty || other (.obj others) v

section

variable (dialect : Dialect) (other : Json → Json → Bool)

mutual

/-- Whether a value fits a schema, if `other` says so of the keywords that are not known. -/
def fits : Json → Json → Bool
  | .obj fields, v => fitsFields fields v && fitsOthers other fields v
  | schema, v => other schema v
termination_by structural schema => schema

def fitsFields : List (String × Json) → Json → Bool
  | [], _ => true
  | (key, value) :: rest, v => fitsKeyword value key v && fitsFields rest v
termination_by structural fields => fields

def fitsKeyword : Json → String → Json → Bool
  | .arr schemas, "oneOf", v => one (fitsEach schemas v)
  | .arr schemas, "anyOf", v => any (fitsEach schemas v)
  | .arr values, "enum", v => values.any (dialect.equal · v)
  | value, "type", v => (Definition.tagsOf value).any (dialect.fitsTag v)
  | _, _, _ => true
termination_by structural value => value

def fitsEach : List Json → Json → List Bool
  | [], _ => []
  | schema :: rest, v => fits schema v :: fitsEach rest v
termination_by structural schemas => schemas

end

end

variable {dialect : Dialect} {other : Json → Json → Bool} {d d' : Definition} {v : Json}

theorem fitsEach_eq (schemas : List Json) (v : Json) :
    fitsEach dialect other schemas v = schemas.map (fits dialect other · v) := by
  induction schemas with
  | nil => rfl
  | cons schema rest ih => rw [fitsEach, ih, List.map_cons]

theorem fitsFields_eq (fields : List (String × Json)) (v : Json) :
    fitsFields dialect other fields v =
      fields.all fun field => fitsKeyword dialect other field.2 field.1 v := by
  induction fields with
  | nil => rfl
  | cons field rest ih => rw [fitsFields, ih, List.all_cons]

theorem fitsKeyword_type (value v : Json) :
    fitsKeyword dialect other value "type" v =
      (Definition.tagsOf value).any (dialect.fitsTag v) := by
  cases value <;> rfl

theorem fitsKeyword_branches (kind : UnionKeyword) (schemas : List Json) (v : Json) :
    fitsKeyword dialect other (.arr schemas) kind.text v =
      kind.decides (schemas.map (fits dialect other · v)) := by
  rw [← fitsEach_eq]
  cases kind <;> rfl

theorem fitsTag_null (hv : v ≠ .null) : dialect.fitsTag v (.str "null") = false := by
  cases v with
  | null => exact absurd rfl hv
  | _ => rfl

/-- The branch that is added speaks of null only. -/
theorem fits_nullBranch (hv : v ≠ .null) :
    fits dialect other Definition.nullBranch v = false := by
  change fits dialect other (.obj [("type", .str "null")]) v = false
  rw [fits, fitsFields_eq, List.all_cons, fitsKeyword_type, Definition.tagsOf, List.any_cons,
    fitsTag_null hv]
  · rfl
  · intro tags htags
    cases htags

theorem decides_append_false (kind : UnionKeyword) (answers : List Bool) :
    kind.decides (answers ++ [false]) = kind.decides answers := by
  cases kind with
  | oneOf => simp [UnionKeyword.decides, one, List.count_append]
  | anyOf => simp [UnionKeyword.decides, any]

/-! ## Replaced keywords -/

section

variable {key : String} {old new : Json} {entries : Entries String Json}

theorem all_insert {p : String × Json → Bool} (hold : Entries.find? key entries = some old)
    (hsame : p (key, new) = p (key, old)) :
    (Entries.insert key new entries).all p = entries.all p := by
  induction entries with
  | nil => cases hold
  | cons entry rest ih =>
      obtain ⟨k, value⟩ := entry
      rw [Entries.find?] at hold
      rw [Entries.insert]
      split at hold
      · rename_i hkey
        cases hold
        rw [if_pos hkey, List.all_cons, List.all_cons, hsame, hkey]
      · rename_i hkey
        rw [if_neg hkey, List.all_cons, List.all_cons, ih hold]

/-- A keyword that is read may be replaced where it says the same of a value. -/
theorem fits_insert (hold : d.find? key = some old) (hread : isRead (key, old) = true)
    (hread' : isRead (key, new) = true)
    (hsame : fitsKeyword dialect other new key v = fitsKeyword dialect other old key v) :
    fits dialect other (Definition.toJson (d.insert key new)) v =
      fits dialect other d.toJson v := by
  change fits dialect other (.obj (Entries.insert key new d.entries)) v =
    fits dialect other (.obj d.entries) v
  rw [fits, fits, fitsFields_eq, fitsFields_eq, fitsOthers, fitsOthers,
    all_insert hold hsame, Entries.filter_insert (fun old' hold' => ?_) (by rw [hread']; rfl)]
  cases hold.symm.trans hold'
  rw [hread]
  rfl

end

/-! ## Verdicts after widening -/

theorem fits_widened (h : d.Widens d') (hv : v ≠ .null) :
    fits dialect other d'.toJson v = fits dialect other d.toJson v := by
  cases h with
  | listed _ => rfl
  | @typed value hplain htype =>
      refine fits_insert htype rfl rfl ?_
      rw [fitsKeyword_type, fitsKeyword_type]
      simp [Definition.tagsOf, fitsTag_null hv]
  | @branched keyword branches hunion =>
      obtain ⟨hkeyword, hfind⟩ := Definition.unionKeyword_eq_some hunion
      obtain ⟨kind, rfl⟩ : ∃ kind : UnionKeyword, keyword = kind.text := by
        rcases hkeyword with rfl | rfl
        · exact ⟨.oneOf, rfl⟩
        · exact ⟨.anyOf, rfl⟩
      refine fits_insert hfind (by cases kind <;> rfl) (by cases kind <;> rfl) ?_
      rw [fitsKeyword_branches, fitsKeyword_branches, List.map_append, List.map_singleton,
        fits_nullBranch hv, decides_append_false]
  | wrapped =>
      change fits dialect other
        (.obj [(UnionKeyword.anyOf.text, .arr [d.toJson, Definition.nullBranch])]) v = _
      have hothers : fitsOthers other [(UnionKeyword.anyOf.text,
          .arr [d.toJson, Definition.nullBranch])] v = true := rfl
      rw [fits, hothers, fitsFields_eq, List.all_cons, fitsKeyword_branches, List.map_cons,
        List.map_singleton, fits_nullBranch hv]
      simp [UnionKeyword.decides, any]

/-- Widening twice is widening once, it changes the verdict on null only, and nothing gets lost. -/
theorem makeNullable_conservative (d : Definition) :
    d.makeNullable.makeNullable = d.makeNullable ∧
      (∀ (dialect : Dialect) (other : Json → Json → Bool) (v : Json), v ≠ .null →
        fits dialect other d.makeNullable.toJson v = fits dialect other d.toJson v) ∧
      Definition.Conserves d d.makeNullable :=
  ⟨Definition.makeNullable_idempotent d,
    fun _ _ _ hv => fits_widened (Definition.makeNullable_widens d) hv,
    (Definition.makeNullable_widens d).conserves⟩

/-- A type with a bound, which is kept in a branch of its own. -/
def bounded : Definition := (Definition.ofType "number").insert "minimum" (.nat 3)

theorem makeNullable_conservative_bounded :
    Json.nat 5 ≠ .null ∧
      fits .strict (fun _ _ => true) bounded.makeNullable.toJson (.nat 5) = true ∧
      fits .strict (fun _ _ => true) bounded.makeNullable.toJson .null = true ∧
      fits .strict (fun _ _ => true) bounded.toJson .null = false := by
  have hv : Json.nat 5 ≠ .null := nofun
  obtain ⟨-, hfits, -⟩ := makeNullable_conservative bounded
  exact ⟨hv, (hfits .strict (fun _ _ => true) (.nat 5) hv).trans rfl, rfl, rfl⟩

end Validation

end TypeSchema
