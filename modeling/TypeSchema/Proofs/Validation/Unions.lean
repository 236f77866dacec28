import TypeSchema.Proofs.Schema.Unique
import TypeSchema.Proofs.Validation.Alike

/-!
# Verdicts of unions

A union accepts a value by how many of its branches do.  All bare types of its members together make
one branch, so the number depends on which members are described as bare types; it is the same for
two lists of members if no value fits two of the bare types, unless they are bare in both lists.
-/

namespace TypeSchema

open Schema (Described Sorts)

namespace UnionKeyword

def decides : UnionKeyword → List Bool → Bool
  | .oneOf => Validation.one
  | .anyOf => Validation.any

/-- The verdict by the number of branches that accept a value. -/
def decidesCount : UnionKeyword → Nat → Bool
  | .oneOf, count => count == 1
  | .anyOf, count => decide (0 < count)

end UnionKeyword

namespace Validation

/-! ## Counting branches -/

section

variable (fits : String → Bool)

/-- The definition is a bare type that the value fits. -/
def bareFits (d : Definition) : Bool := d.bareType.any fits

/-- The branches that accept a value, except those made of literal values. -/
def countBranches (accepts : Definition → Bool) (ds : List Definition) (extra : Bool) : Nat :=
  (ds.filter (·.bareType.isNone)).countP accepts + (extra || ds.any (bareFits fits)).toNat

variable {fits} {accepts accepts' : Definition → Bool} {pairs : List (Definition × Definition)}
  {extra : Bool} {ds : List Definition} {d : Definition} {tag : String}

theorem countBranches_bare (h : d.bareType = some tag) :
    countBranches fits accepts (d :: ds) extra =
      countBranches fits accepts ds (extra || fits tag) := by
  simp [countBranches, bareFits, h, Bool.or_assoc]

theorem countBranches_schema (h : d.bareType = none) :
    countBranches fits accepts (d :: ds) extra =
      (accepts d).toNat + countBranches fits accepts ds extra := by
  cases hd : accepts d <;> simp [countBranches, bareFits, h, hd]
  omega

theorem countBranches_extra (h : ∀ d ∈ ds, bareFits fits d = false) :
    countBranches fits accepts ds true = 1 + countBranches fits accepts ds false := by
  have hany : ds.any (bareFits fits) = false := List.any_eq_false.2 fun d hd => by simp [h d hd]
  simp [countBranches, hany, Nat.add_comm]

theorem countBranches_pos_iff (h : ∀ d ∈ ds, ∀ tag, d.bareType = some tag → accepts d = fits tag) :
    0 < countBranches fits accepts ds extra ↔ extra = true ∨ ∃ d ∈ ds, accepts d = true := by
  induction ds generalizing extra with
  | nil => cases extra <;> simp [countBranches]
  | cons d rest ih =>
      obtain ⟨hd, hrest⟩ := List.forall_mem_cons.1 h
      rw [List.exists_mem_cons_iff]
      cases hbare : d.bareType with
      | some tag => rw [countBranches_bare hbare, ih hrest, hd tag hbare, Bool.or_eq_true, or_assoc]
      | none =>
          rw [countBranches_schema hbare, Nat.add_pos_iff_pos_or_pos, ih hrest]
          cases accepts d <;> simp

/-- Two definitions with the same verdict on a value; what is bare first is so in the second. -/
structure SameVerdict (fits : String → Bool) (accepts accepts' : Definition → Bool)
    (pair : Definition × Definition) : Prop where
  same : accepts pair.1 = accepts' pair.2
  bare : ∀ tag, pair.1.bareType = some tag → pair.2.bareType = some tag
  fits : ∀ tag, pair.2.bareType = some tag → accepts' pair.2 = fits tag

/-- If a definition is bare on the right only and the value fits it, then it is the only one. -/
theorem countBranches_eq (h : ∀ pair ∈ pairs, SameVerdict fits accepts accepts' pair)
    (hpairs : pairs.Pairwise fun p q => bareFits fits p.2 = true → bareFits fits q.2 = true →
      bareFits fits p.1 = true ∧ bareFits fits q.1 = true)
    (hextra : extra = true → ∀ pair ∈ pairs, bareFits fits pair.2 = true →
      bareFits fits pair.1 = true) :
    countBranches fits accepts (pairs.map (·.1)) extra =
      countBranches fits accepts' (pairs.map (·.2)) extra := by
  -- `extra` says whether the value fits a bare type that was passed already
  induction pairs generalizing extra with
  | nil => rfl
  | cons pair rest ih =>
      obtain ⟨d, d'⟩ := pair
      obtain ⟨hpair, hrest⟩ := List.forall_mem_cons.1 h
      obtain ⟨hfirst, hpairs⟩ := List.pairwise_cons.1 hpairs
      simp only [List.map_cons]
      cases hbare : d.bareType with
      | some tag =>
          have hbare' := hpair.bare tag hbare
          rw [countBranches_bare hbare, countBranches_bare hbare']
          refine ih hrest hpairs fun hextra' q hq hfits => ?_
          rcases Bool.or_eq_true_iff.1 hextra' with hextra' | htag
          · exact hextra hextra' q (List.mem_cons_of_mem _ hq) hfits
          · exact (hfirst q hq (by simpa [bareFits, hbare'] using htag) hfits).2
      | none =>
          rw [countBranches_schema hbare, hpair.same]
          have hnot : bareFits fits d = false := by simp [bareFits, hbare]
          cases hbare' : d'.bareType with
          | none =>
              rw [countBranches_schema hbare']
              refine congrArg (_ + ·) (ih hrest hpairs fun hextra' q hq => ?_)
              exact hextra hextra' q (List.mem_cons_of_mem _ hq)
          | some tag =>
              rw [countBranches_bare hbare', hpair.fits tag hbare']
              cases htag : fits tag with
              | false =>
                  rw [Bool.or_false, Bool.toNat_false, Nat.zero_add]
                  exact ih hrest hpairs fun hextra' q hq =>
                    hextra hextra' q (List.mem_cons_of_mem _ hq)
              | true =>
                  -- a branch of its own on the left, one more type on the right
                  have hfits : bareFits fits d' = true := by simp [bareFits, hbare', htag]
                  have hextra' : extra = false := Bool.eq_false_iff.2 fun hextra' => by
                    simpa [hnot] using hextra hextra' (d, d') List.mem_cons_self hfits
                  have hothers : ∀ e ∈ rest.map (·.2), bareFits fits e = false :=
                    List.forall_mem_map.2 fun q hq => Bool.eq_false_iff.2 fun hq' => by
                      simpa [hnot] using (hfirst q hq hfits hq').1
                  rw [hextra', Bool.or_true, countBranches_extra hothers]
                  exact congrArg (1 + ·) (ih hrest hpairs fun hfalse => by cases hfalse)

end

end Validation

/-! ## Parts of a union -/

namespace Schema

open Validation (bareFits)

section

variable {env : Environment} {parts parts' : UnionParts} {members : List TypeId}
  {made : List Described} {fits : String → Bool}

theorem any_addTag (parts : UnionParts) (tag : String) :
    (parts.addTag tag).tags.any fits = (parts.tags.any fits || fits tag) := by
  unfold UnionParts.addTag
  split
  · rename_i hmem
    cases htag : fits tag with
    | false => rw [Bool.or_false]
    | true => rw [Bool.or_true, List.any_eq_true.2 ⟨tag, hmem, htag⟩]
  · simp

theorem Sorts.schemas_eq (h : Sorts env parts members made parts') :
    parts'.schemas =
      parts.schemas ++ (made.map (·.definition)).filter (·.bareType.isNone) := by
  induction h with
  | nil => simp
  | value _ _ _ ih => rw [ih, addValue_schemas]
  | absent _ hd _ ih => simp [ih, hd]
  | tag _ hd _ _ ih => simp [ih, hd]
  | schema _ hd _ ih => simp [ih, hd, UnionParts.addSchema]

theorem Sorts.any_tags (hundefined : fits "undefined" = false)
    (h : Sorts env parts members made parts') :
    parts'.tags.any fits =
      (parts.tags.any fits || (made.map (·.definition)).any (bareFits fits)) := by
  induction h with
  | nil => simp
  | value _ _ _ ih => rw [ih, addValue_tags]
  | absent _ hd _ ih => simp [ih, bareFits, hd, hundefined]
  | tag _ hd _ _ ih => simp [ih, bareFits, hd, any_addTag, Bool.or_assoc]
  | schema _ hd _ ih => simp [ih, bareFits, hd, UnionParts.addSchema]

/-- Only members that are undefined make no part. -/
theorem Sorts.makes_nothing_iff (h : Sorts env parts members made parts') :
    parts'.schemas = [] ∧ parts'.tags = [] ↔ (parts.schemas = [] ∧ parts.tags = []) ∧
      ∀ m ∈ made, m.definition.bareType = some "undefined" := by
  induction h with
  | nil => simp
  | value _ _ _ ih => rw [ih, addValue_schemas, addValue_tags]
  | absent _ hd _ ih => simp [ih, hd]
  | @tag parts _ _ _ _ tag _ _ hd hne _ ih =>
      simp [ih, hd, hne, addTag_tags_ne_nil parts tag]
  | schema _ hd _ ih => simp [ih, hd, UnionParts.addSchema]

theorem branches_eq_nil_iff :
    parts.branches = [] ↔ parts.values = [] ∧ parts.schemas = [] ∧ parts.tags = [] := by
  unfold UnionParts.branches UnionParts.joinBooleans
  split
  · rename_i hpair
    have hvalues : parts.values ≠ [] := by
      rintro hnil
      rw [hnil] at hpair
      cases hpair
    have htags : (parts.addTag "boolean").tags ≠ [] := addTag_tags_ne_nil parts "boolean"
    simp [hvalues, htags]
  · simp [and_assoc, and_comm, and_left_comm]

end

end Schema

namespace Validation

/-! ## Verdicts -/

variable {test : Json → Json → Option Bool} {dialect : Dialect} {keyword : String → Option Json}
  {definitions : Entries String Json} {depth : Nat} {v : Json}

theorem tally_true {α : Type} (items : List α) :
    tally all (fun _ => some true) items = some true := by
  unfold tally
  induction items with
  | nil => rfl
  | cons item rest ih =>
      obtain ⟨answers, hrest, hall⟩ := Option.map_eq_some_iff.1 ih
      simp only [List.mapM_cons, hrest]
      simpa [all] using hall

theorem testFields_none (v : Json) : testFields test none none v = some true := by
  unfold testFields
  split
  · exact tally_true _
  · rfl

theorem testItems_none (v : Json) : testItems test none none v = some true := by
  cases v <;> rfl

/-- If only the type is stated, it decides. -/
theorem check_type (h : ∀ key ∈ readKeywords, key ≠ "type" → keyword key = none) :
    check test dialect keyword v = some (dialect.fitsType (keyword "type") v) := by
  simp (disch := decide) only [check, h, testFields_none, testItems_none]
  cases dialect.fitsType (keyword "type") v <;> rfl

/-- If there is only a union, it decides. -/
theorem check_branches (kind : UnionKeyword)
    (h : ∀ key ∈ readKeywords, key ≠ kind.text → keyword key = none) :
    check test dialect keyword v = testBranches test kind.decides (keyword kind.text) v := by
  cases kind with
  | oneOf =>
      simp (disch := decide) only [check, h, testFields_none, testItems_none, UnionKeyword.decides,
        UnionKeyword.text]
      rcases testBranches test one (keyword "oneOf") v with _ | _ | _ <;> rfl
  | anyOf =>
      simp (disch := decide) only [check, h, testFields_none, testItems_none, UnionKeyword.decides,
        UnionKeyword.text]
      rcases testBranches test any (keyword "anyOf") v with _ | _ | _ <;> rfl

theorem decides_map {α : Type} (kind : UnionKeyword) (accepts : α → Bool) (branches : List α) :
    kind.decides (branches.map accepts) = kind.decidesCount (branches.countP accepts) := by
  cases kind with
  | oneOf => simp [UnionKeyword.decides, UnionKeyword.decidesCount, one, List.count_eq_countP,
      List.countP_map, Function.comp_def]
  | anyOf =>
      refine Bool.eq_iff_iff.2 ?_
      simp [UnionKeyword.decides, UnionKeyword.decidesCount, any]

/-- Within some depth the definition has the verdict. -/
def Decided (dialect : Dialect) (definitions : Entries String Json) (depth : Nat)
    (accepts : Definition → Bool) (v : Json) (d : Definition) : Prop :=
  validate dialect definitions depth d.toJson v = some (accepts d)

theorem mapM_decided {ds : List Definition} {accepts : Definition → Bool}
    (h : ∀ d ∈ ds, Decided dialect definitions depth accepts v d) :
    (ds.map Definition.toJson).mapM (validate dialect definitions depth · v) =
      some (ds.map accepts) := by
  rw [List.mapM_map]
  exact mapM_of_forall h

theorem validate_write {parts : UnionParts} {d : Definition} {accepts : Definition → Bool}
    (kind : UnionKeyword) (hd : ∀ key ∈ readKeywords, d.find? key = none)
    (h : ∀ branch ∈ parts.branches, Decided dialect definitions depth accepts v branch) :
    validate dialect definitions (depth + 1) (parts.write kind d).toJson v =
      some (parts.branches.isEmpty || kind.decidesCount (parts.branches.countP accepts)) := by
  unfold UnionParts.write
  match hbranches : parts.branches with
  | [] =>
      rw [validate_of_no_reference (hd "$ref" (by decide)),
        check_type fun key hkey _ => hd key hkey, hd "type" (by decide)]
      rfl
  | [only] =>
      have honly := h only (by rw [hbranches]; exact List.mem_cons_self)
      have hmerge : ∀ key ∈ readKeywords, (d.merge only).find? key = only.find? key :=
        fun key hkey => by rw [Dict.find?_merge, hd key hkey, Option.or_none]
      rw [validate_congr hmerge, validate_stays_from (Nat.le_succ depth) honly]
      cases kind <;> cases honly : accepts only <;>
        simp [UnionKeyword.decidesCount, honly]
  | first :: second :: rest =>
      rw [hbranches] at h
      have hothers : ∀ key ∈ readKeywords, key ≠ kind.text → (d.insert kind.text
          (.arr ((first :: second :: rest).map Definition.toJson))).find? key = none :=
        fun key hkey hne => by rw [Dict.find?_insert_of_ne _ hne, hd key hkey]
      rw [validate_of_no_reference (hothers "$ref" (by decide) (by cases kind <;> decide)),
        check_branches kind hothers, Dict.find?_insert_self, testBranches, tally,
        mapM_decided h, Option.map_some, decides_map]
      rfl

/-! ## Branches of a union -/

section

variable {env : Environment} {parts : UnionParts} {members : List TypeId} {made : List Described}
  {fits : String → Bool} {accepts : Definition → Bool}

/-- The branch made of literal values, if they do not make a type. -/
def valueBranch (values : List Json) : List Definition :=
  if values.isEmpty || UnionParts.isBooleanPair values then [] else [UnionParts.enumSchema values]

theorem countP_tags (htags : ∀ tags ≠ [],
      accepts (Definition.setTypes Dict.empty tags) = tags.any fits) (tags : List String) :
    (if tags.isEmpty then [] else [Definition.setTypes Dict.empty tags]).countP accepts =
      (tags.any fits).toNat := by
  cases tags with
  | nil => rfl
  | cons tag rest =>
      rw [List.isEmpty_cons, if_neg Bool.false_ne_true, List.countP_singleton,
        htags _ (List.cons_ne_nil _ _)]
      cases (tag :: rest).any fits <;> rfl

theorem countP_branches (hundefined : fits "undefined" = false)
    (htags : ∀ tags ≠ [], accepts (Definition.setTypes Dict.empty tags) = tags.any fits)
    (h : Sorts env .empty members made parts) :
    parts.branches.countP accepts =
      countBranches fits accepts (made.map (·.definition))
        (UnionParts.isBooleanPair parts.values && fits "boolean") +
      (valueBranch parts.values).countP accepts := by
  have hschemas := h.schemas_eq
  have hany := h.any_tags hundefined
  simp only [UnionParts.empty, List.nil_append, List.any_nil, Bool.false_or] at hschemas hany
  unfold UnionParts.branches UnionParts.joinBooleans valueBranch countBranches
  cases hpair : UnionParts.isBooleanPair parts.values with
  | true =>
      simp only [if_true, List.isEmpty_nil, List.append_nil, List.countP_append, countP_tags htags,
        Schema.addTag_schemas, Schema.any_addTag, hschemas, hany, Bool.or_true, List.countP_nil,
        Bool.true_and, Bool.or_comm (fits "boolean"), Nat.add_zero]
  | false =>
      simp only [Bool.false_eq_true, if_false, List.countP_append, countP_tags htags, hschemas,
        hany, Bool.or_false, Bool.false_and, Bool.false_or]
      omega

end

/-! ## Agreement of unions -/

variable {definitions' : Entries String Json} {d d' : Definition}

def verdictAt (dialect : Dialect) (definitions : Entries String Json) (depth : Nat) (v : Json)
    (d : Definition) : Bool :=
  (validate dialect definitions depth d.toJson v).getD false

theorem AgreeAt.decided
    (h : AgreeAt dialect definitions definitions' depth d.toJson d'.toJson) (v : Json) :
    Decided dialect definitions depth (verdictAt dialect definitions depth v) v d ∧
      Decided dialect definitions' depth (verdictAt dialect definitions' depth v) v d' ∧
      verdictAt dialect definitions depth v d = verdictAt dialect definitions' depth v d' := by
  obtain ⟨answer, hd, hd'⟩ := h v
  have hverdict : verdictAt dialect definitions depth v d = answer := by rw [verdictAt, hd]; rfl
  have hverdict' : verdictAt dialect definitions' depth v d' = answer := by rw [verdictAt, hd']; rfl
  exact ⟨by rw [Decided, hd, hverdict], by rw [Decided, hd', hverdict'],
    hverdict.trans hverdict'.symm⟩

theorem enumSchema_looksAlike (related : Json → Json → Prop) (values : List Json) :
    LooksAlike [] related (UnionParts.enumSchema values) (UnionParts.enumSchema values) := by
  refine LooksAlike.insertPlain ?_ (by decide) _
  split
  · exact LooksAlike.empty.setType _
  · exact .empty

theorem enumSchema_agreeAt (values : List Json) :
    AgreeAt dialect definitions definitions' 1 (UnionParts.enumSchema values).toJson
      (UnionParts.enumSchema values).toJson :=
  (enumSchema_looksAlike _ values).agreeAt fun _ _ => List.not_mem_nil

theorem setTypes_agreeAt (tags : List String) :
    AgreeAt dialect definitions definitions' 1 (Definition.setTypes Dict.empty tags).toJson
      (Definition.setTypes Dict.empty tags).toJson :=
  LooksAlike.agreeAt (LooksAlike.empty.setTypes tags) fun _ _ => List.not_mem_nil

theorem fitsType_setTypes {tags : List String} (htags : tags ≠ []) :
    dialect.fitsType ((Definition.setTypes Dict.empty tags).find? "type") v =
      tags.any (dialect.hasType v) := by
  match tags with
  | [] => exact absurd rfl htags
  | [tag] => exact (Bool.or_false _).symm
  | first :: second :: rest =>
      have htags : (Definition.setTypes Dict.empty (first :: second :: rest)).find? "type" =
          some (Json.strs (first :: second :: rest)) := Dict.find?_insert_self _ _ _
      rw [htags]
      simp [Dialect.fitsType, Json.strs, Json.str?, List.any_map, Function.comp_def]

theorem verdictAt_setTypes (hdepth : 1 ≤ depth) (tags : List String) (htags : tags ≠ []) :
    verdictAt dialect definitions depth v (Definition.setTypes Dict.empty tags) =
      tags.any (dialect.hasType v) := by
  obtain ⟨depth, rfl⟩ := Nat.exists_eq_add_of_le' hdepth
  have hothers (key : String) (hkey : key ≠ "type") :
      (Definition.setTypes Dict.empty tags).find? key = none := by
    unfold Definition.setTypes
    split
    · rfl
    · exact Dict.find?_insert_of_ne _ hkey _
    · exact Dict.find?_insert_of_ne _ hkey _
  rw [verdictAt, validate_of_no_reference (hothers "$ref" (by decide)),
    check_type fun key _ hkey => hothers key hkey, fitsType_setTypes htags]
  rfl

/-- No value fits two bare types on the right unless both are bare on the left as well. -/
structure Apart (dialect : Dialect) (values : List Json) (pairs : List (Definition × Definition)) :
    Prop where
  members : ∀ v, pairs.Pairwise fun p q => bareFits (dialect.hasType v) p.2 = true →
    bareFits (dialect.hasType v) q.2 = true →
      bareFits (dialect.hasType v) p.1 = true ∧ bareFits (dialect.hasType v) q.1 = true
  booleans : UnionParts.isBooleanPair values = true → ∀ v, dialect.hasType v "boolean" = true →
    ∀ p ∈ pairs, bareFits (dialect.hasType v) p.2 = true → bareFits (dialect.hasType v) p.1 = true

section

variable {env : Environment} {members : List TypeId} {made : List Described} {parts : UnionParts}

theorem branches_decided (hdepth : 1 ≤ depth) (h : Sorts env .empty members made parts)
    (hmade : ∀ d ∈ made.map (·.definition), Decided dialect definitions depth
      (verdictAt dialect definitions depth v) v d) :
    ∀ branch ∈ parts.branches, Decided dialect definitions depth
      (verdictAt dialect definitions depth v) v branch := by
  intro branch hbranch
  obtain hschema | ⟨values, rfl⟩ | rfl := Schema.mem_branches hbranch
  · obtain hnone | ⟨m, hm, rfl, -⟩ := Schema.mem_schemas_of_sorts h hschema
    · exact absurd hnone List.not_mem_nil
    · exact hmade _ (List.mem_map_of_mem hm)
  · have hagree : AgreeAt dialect definitions definitions depth
        (UnionParts.enumSchema values).toJson _ := (enumSchema_agreeAt values).mono hdepth
    exact (hagree.decided v).1
  · have hagree : AgreeAt dialect definitions definitions depth
        (Definition.setTypes Dict.empty parts.joinBooleans.tags).toJson _ :=
      (setTypes_agreeAt _).mono hdepth
    exact (hagree.decided v).1

theorem isEmpty_branches_iff (h : Sorts env .empty members made parts) :
    parts.branches.isEmpty = true ↔ parts.values = [] ∧
      ∀ d ∈ made.map (·.definition), d.bareType = some "undefined" := by
  rw [List.isEmpty_iff, Schema.branches_eq_nil_iff, h.makes_nothing_iff, List.forall_mem_map]
  simp [UnionParts.empty]

end

theorem decidesCount_eq {accepts accepts' : Definition → Bool} {fits : String → Bool}
    {pairs : List (Definition × Definition)} {extra : Bool} (kind : UnionKeyword) (count : Nat)
    (h : ∀ pair ∈ pairs, SameVerdict fits accepts accepts' pair)
    (hpairs : kind = .oneOf → pairs.Pairwise fun p q => bareFits fits p.2 = true →
      bareFits fits q.2 = true → bareFits fits p.1 = true ∧ bareFits fits q.1 = true)
    (hextra : kind = .oneOf → extra = true → ∀ pair ∈ pairs, bareFits fits pair.2 = true →
      bareFits fits pair.1 = true) :
    kind.decidesCount (countBranches fits accepts (pairs.map (·.1)) extra + count) =
      kind.decidesCount (countBranches fits accepts' (pairs.map (·.2)) extra + count) := by
  cases kind with
  | oneOf => rw [countBranches_eq h (hpairs rfl) (hextra rfl)]
  | anyOf =>
      have hpos : 0 < countBranches fits accepts (pairs.map (·.1)) extra ↔
          0 < countBranches fits accepts' (pairs.map (·.2)) extra := by
        rw [countBranches_pos_iff, countBranches_pos_iff]
        · refine or_congr_right ?_
          simp only [List.mem_map, exists_exists_and_eq_and]
          exact exists_congr fun p => and_congr_right fun hp => by rw [(h p hp).same]
        · exact List.forall_mem_map.2 fun p hp => (h p hp).fits
        · refine List.forall_mem_map.2 fun p hp tag hbare => ?_
          rw [(h p hp).same, (h p hp).fits tag ((h p hp).bare tag hbare)]
      simp only [UnionKeyword.decidesCount, Nat.add_pos_iff_pos_or_pos, hpos]

theorem countP_valueBranch (hdepth : 1 ≤ depth) (values : List Json) :
    (valueBranch values).countP (verdictAt dialect definitions depth v) =
      (valueBranch values).countP (verdictAt dialect definitions' depth v) := by
  refine List.countP_congr fun branch hbranch => ?_
  unfold valueBranch at hbranch
  split at hbranch
  · exact absurd hbranch List.not_mem_nil
  · rw [List.mem_singleton.1 hbranch, (((enumSchema_agreeAt values).mono hdepth).decided v).2.2]

theorem AgreeAt.sameVerdict {pair : Definition × Definition} (hdepth : 1 ≤ depth)
    (h : AgreeAt dialect definitions definitions' depth pair.1.toJson pair.2.toJson)
    (hbare : ∀ tag, pair.1.bareType = some tag → pair.2.bareType = some tag) :
    SameVerdict (dialect.hasType v) (verdictAt dialect definitions depth v)
      (verdictAt dialect definitions' depth v) pair where
  same := (h.decided v).2.2
  bare := hbare
  fits tag htag := by
    rw [show pair.2 = Definition.setTypes Dict.empty [tag] from
      Dict.ext (Definition.entries_of_bareType htag),
      verdictAt_setTypes hdepth _ (List.cons_ne_nil _ _)]
    exact Bool.or_false _

/-- Two unions have the same verdicts if their members do; where one branch exactly must accept a
value, it matters which members are bare types. -/
theorem union_agreeAt {env env' : Environment} {members members' : List TypeId}
    {made made' : List Described} {parts parts' : UnionParts}
    {pairs : List (Definition × Definition)} (kind : UnionKeyword) (hdepth : 1 ≤ depth)
    (hsorts : Sorts env .empty members made parts)
    (hsorts' : Sorts env' .empty members' made' parts')
    (hmade : made.map (·.definition) = pairs.map (·.1))
    (hmade' : made'.map (·.definition) = pairs.map (·.2)) (hvalues : parts.values = parts'.values)
    (hagree : ∀ p ∈ pairs, AgreeAt dialect definitions definitions' depth p.1.toJson p.2.toJson)
    (hbare : ∀ p ∈ pairs, ∀ tag, p.1.bareType = some tag → p.2.bareType = some tag)
    (habsent : ∀ p ∈ pairs, p.2.bareType = some "undefined" → p.1.bareType = some "undefined")
    (hapart : kind = .oneOf → Apart dialect parts.values pairs)
    (hd : ∀ key ∈ readKeywords, d.find? key = none)
    (hd' : ∀ key ∈ readKeywords, d'.find? key = none) :
    AgreeAt dialect definitions definitions' (depth + 1) (parts.write kind d).toJson
      (parts'.write kind d').toJson := by
  intro v
  have hdecided : ∀ d ∈ made.map (·.definition), Decided dialect definitions depth
      (verdictAt dialect definitions depth v) v d := by
    rw [hmade]
    exact List.forall_mem_map.2 fun p hp => ((hagree p hp).decided v).1
  have hdecided' : ∀ d ∈ made'.map (·.definition), Decided dialect definitions' depth
      (verdictAt dialect definitions' depth v) v d := by
    rw [hmade']
    exact List.forall_mem_map.2 fun p hp => ((hagree p hp).decided v).2.1
  have hempty : parts.branches.isEmpty = parts'.branches.isEmpty := by
    rw [Bool.eq_iff_iff, isEmpty_branches_iff hsorts, isEmpty_branches_iff hsorts', hmade, hmade',
      hvalues, List.forall_mem_map, List.forall_mem_map]
    exact and_congr_right fun _ => forall_congr' fun p => forall_congr' fun hp =>
      ⟨hbare p hp _, habsent p hp⟩
  refine ⟨_, validate_write kind hd (branches_decided hdepth hsorts hdecided), ?_⟩
  rw [validate_write kind hd' (branches_decided hdepth hsorts' hdecided'), hempty,
    countP_branches (dialect.hasType_undefined v) (verdictAt_setTypes hdepth) hsorts,
    countP_branches (dialect.hasType_undefined v) (verdictAt_setTypes hdepth) hsorts', hmade,
    hmade', countP_valueBranch hdepth, hvalues]
  refine congrArg (fun accepted => some (_ || accepted)) (decidesCount_eq kind _
    (fun p hp => (hagree p hp).sameVerdict hdepth (hbare p hp)) ?_ ?_).symm
  · exact fun hkind => (hapart hkind).members v
  · intro hkind hextra
    obtain ⟨hpair, hboolean⟩ := Bool.and_eq_true_iff.1 hextra
    exact (hapart hkind).booleans (hvalues ▸ hpair) v hboolean

end Validation

end TypeSchema
