import TypeSchema.Proofs.Validation.Form
import TypeSchema.Proofs.Validation.Inlining
import TypeSchema.Proofs.Validation.Known

/-!
# Reducing unions

The literal values of a union make one group, its bare types another, and each other member is a
group by itself.  The union accepts what one of its members accepts; where exactly one branch must
accept a value, this holds of each value that no two of the groups accept.
-/

namespace TypeSchema

open Schema (Described Describes Sorts)

namespace Json

variable {values : List Json} {v : Json}

theorem any_sort {test : Json → Bool}
    (h : ∀ a ∈ values, ∀ b ∈ values, a.same b = true → test a = test b) :
    (EnumValues.sort values).any test = values.any test := by
  rw [← any_distinct h, Bool.eq_iff_iff, List.any_eq_true, List.any_eq_true]
  exact exists_congr fun a => and_congr_left' (EnumValues.sort_perm values).mem_iff

end Json

namespace Validation

/-! ## Branches -/

section

variable {dialect : Dialect} {other : Json → Json → Bool} {v : Json}

theorem admits_bareType {d : Definition} {tag : String} (h : d.bareType = some tag) :
    admits dialect other d.toJson v = dialect.hasType v tag := by
  change admits dialect other (.obj d.entries) v = _
  rw [Definition.entries_of_bareType h, admits_single (by decide)]
  rfl

theorem admits_setTypes {tags : List String} (htags : tags ≠ []) :
    admits dialect other (Definition.setTypes Dict.empty tags).toJson v =
      tags.any (dialect.hasType v) := by
  rw [← fitsType_setTypes htags]
  match tags with
  | [] => exact absurd rfl htags
  | [tag] => exact admits_single (by decide) _ v
  | first :: second :: rest => exact admits_single (by decide) _ v

theorem admits_union (kind : UnionKeyword) (branches : List Definition) :
    admits dialect other (Definition.toJson
        (Dict.empty.insert kind.text (.arr (branches.map Definition.toJson)))) v =
      kind.decides (branches.map fun d => admits dialect other d.toJson v) := by
  refine (admits_single (by cases kind <;> decide) _ v).trans ?_
  rw [admitsKeyword_branches, List.map_map]
  rfl

theorem admits_write {parts : UnionParts} (kind : UnionKeyword) (h : parts.branches ≠ []) :
    admits dialect other (parts.write kind Dict.empty).toJson v =
      kind.decidesCount (parts.branches.countP fun d => admits dialect other d.toJson v) := by
  unfold UnionParts.write
  match hbranches : parts.branches with
  | [] => exact absurd hbranches h
  | [only] =>
      dsimp only
      rw [Dict.empty_merge]
      cases kind <;> cases hadmits : admits dialect other only.toJson v <;>
        simp [UnionKeyword.decidesCount, hadmits]
  | first :: second :: rest => rw [← decides_map]; exact admits_union kind _

theorem hasType_primitiveTypeOf (dialect : Dialect) (v : Json) :
    dialect.hasType v (Definition.primitiveTypeOf v) = true := by
  cases v <;> rfl

theorem hasType_of_equal {value : Json} (h : value.equal v = true) :
    dialect.hasType v (Definition.primitiveTypeOf value) = true := by
  have htype : Definition.primitiveTypeOf value = Definition.primitiveTypeOf v := by
    cases value <;> cases v <;> first | rfl | cases h
  rw [htype]
  exact hasType_primitiveTypeOf dialect v

theorem commonType_eq {values : List Json} {tag : String}
    (h : UnionParts.commonType values = some tag) :
    ∀ value ∈ values, Definition.primitiveTypeOf value = tag := by
  unfold UnionParts.commonType at h
  split at h
  · cases h
  · rename_i common rest hvalues
    split at h
    · rename_i hshared
      have heq : common = tag := Option.some.inj h
      subst heq
      have htags : ∀ tag ∈ values.map Definition.primitiveTypeOf, tag = common := by
        rw [hvalues]
        exact List.forall_mem_cons.2 ⟨rfl, fun tag htag =>
          eq_of_beq (List.all_eq_true.1 hshared.2 tag htag)⟩
      exact List.forall_mem_map.1 htags
    · cases h

end

/-! ## Literal values -/

section

variable {isInteger : Number → Bool} {other : Json → Json → Bool} {v : Json}

theorem admits_typedEnum {tag : String} {values : List Json}
    (h : ∀ value ∈ values, Definition.primitiveTypeOf value = tag) :
    admits (.byValue isInteger) other (.obj [("type", .str tag), ("enum", .arr values)]) v =
      values.any (·.equal v) := by
  rw [admits_known rfl]
  change ((Dialect.byValue isInteger).hasType v tag && (values.any (·.equal v) && true)) = _
  rw [Bool.and_true, Bool.and_eq_right_iff_imp]
  intro hany
  obtain ⟨value, hvalue, hequal⟩ := List.any_eq_true.1 hany
  exact h value hvalue ▸ hasType_of_equal hequal

/-- A literal type accepts what is equal to its value. -/
theorem admits_literal (value v : Json) :
    admits (.byValue isInteger) other (Definition.literal value Dict.empty).toJson v =
      value.equal v :=
  (admits_typedEnum (List.forall_mem_singleton.2 rfl)).trans (Bool.or_false _)

theorem admits_enumSchema {values : List Json} (hkeys : ∀ value ∈ values, value.KeysDiffer) :
    admits (.byValue isInteger) other (UnionParts.enumSchema values).toJson v =
      values.any (·.equal v) := by
  have hsort : (EnumValues.sort values).any (·.equal v) = values.any (·.equal v) :=
    Json.any_sort fun a ha b hb hsame =>
      congrFun (Json.equal_of_same (hkeys a ha) (hkeys b hb) hsame) v
  rw [← hsort]
  unfold UnionParts.enumSchema
  dsimp only
  split
  · rename_i tag htag
    exact admits_typedEnum (commonType_eq htag)
  · exact admits_single (by decide) _ v

/-- Both truth values together are what has the type of truth values. -/
theorem any_booleanPair {values : List Json} (hpair : UnionParts.isBooleanPair values = true)
    (hdiffer : values.Pairwise fun a b => a.same b = false) :
    values.any (·.equal v) = (Dialect.byValue isInteger).hasType v "boolean" := by
  obtain ⟨hlength, hbool⟩ := Bool.and_eq_true_iff.1 hpair
  obtain ⟨a, b, rfl⟩ := List.length_eq_two.1 (eq_of_beq hlength)
  obtain ⟨ha, hb⟩ : a.isBool = true ∧ b.isBool = true := by simpa using hbool
  have hdiffer : a.same b = false := by simpa using hdiffer
  cases a with
  | bool x =>
      cases b with
      | bool y =>
          cases v with
          | bool z => cases x <;> cases y <;> cases z <;> first | rfl | cases hdiffer
          | _ => rfl
      | _ => cases hb
  | _ => cases ha

theorem countP_valueBranch_admits {values : List Json}
    (hkeys : ∀ value ∈ values, value.KeysDiffer) :
    (valueBranch values).countP (fun d => admits (.byValue isInteger) other d.toJson v) =
      if UnionParts.isBooleanPair values then 0 else (values.any (·.equal v)).toNat := by
  unfold valueBranch
  cases values with
  | nil => rfl
  | cons first rest =>
      rw [List.isEmpty_cons, Bool.false_or]
      split
      · rfl
      · rw [List.countP_singleton, admits_enumSchema hkeys]
        cases List.any (first :: rest) (·.equal v) <;> rfl

end

/-! ## Groups of members -/

section

variable {fits : String → Bool} {accepts : Definition → Bool} {ds : List Definition} {extra : Bool}

theorem countBranches_extra_le : countBranches fits accepts ds extra ≤
    extra.toNat + countBranches fits accepts ds false := by
  unfold countBranches
  cases extra <;> cases ds.any (bareFits fits) <;> simp [Nat.add_comm]

theorem countBranches_extra_pos (h : 0 < extra.toNat + countBranches fits accepts ds false) :
    0 < countBranches fits accepts ds extra := by
  unfold countBranches at h ⊢
  cases extra with
  | false => simpa using h
  | true => simp

theorem decidesCount_iff {count most : Nat} (kind : UnionKeyword) (hle : count ≤ most)
    (hpos : 0 < most → 0 < count) (hone : kind = .oneOf → most ≤ 1) :
    kind.decidesCount count = true ↔ 0 < most := by
  cases kind with
  | oneOf =>
      have hmost := hone rfl
      rw [UnionKeyword.decidesCount, beq_iff_eq]
      omega
  | anyOf =>
      rw [UnionKeyword.decidesCount, decide_eq_true_eq]
      omega

end

end Validation

namespace Schema

open Validation

section

variable {env : Environment} {members : List TypeId} {made : List Described}
  {parts parts' : UnionParts}

def literalValues (g : Graph) (members : List TypeId) : List Json :=
  members.filterMap (literalOf g)

def notLiteral (g : Graph) (members : List TypeId) : List TypeId :=
  members.filter fun member => (literalOf g member).isNone

theorem Sorts.ofParts (h : Sorts env parts members made parts') :
    ofParts env (notLiteral env.graph members) made := by
  unfold notLiteral
  induction h with
  | nil => rfl
  | value hnode hvalue _ ih =>
      rwa [List.filter_cons_of_neg (by simp [literalOf_eq hnode, hvalue])]
  | absent hmember _ _ ih | schema hmember _ _ ih | tag hmember _ _ _ ih =>
      rw [List.filter_cons_of_pos (by simp [hmember.literalOf_eq])]
      exact ih.cons

variable (dialect : Dialect) (other : Json → Json → Bool)

/-- Some literal type among the members accepts the value. -/
def literalAdmits (g : Graph) (members : List TypeId) (v : Json) : Bool :=
  (literalValues g members).any fun value =>
    admits dialect other (Definition.literal value Dict.empty).toJson v

/-- Some member that is not undefined accepts the value. -/
def memberAdmits (g : Graph) (members : List TypeId) (made : List Described) (v : Json) : Bool :=
  literalAdmits dialect other g members v ||
    made.any fun m => m.definition.bareType != some "undefined" &&
      admits dialect other m.definition.toJson v

/-- How many groups of members accept the value: the literal types, the bare types, and each of the
other members by itself. -/
def groups (g : Graph) (members : List TypeId) (made : List Described) (v : Json) : Nat :=
  (literalAdmits dialect other g members v).toNat +
    countBranches (dialect.hasType v) (fun d => admits dialect other d.toJson v)
      (made.map (·.definition)) false

end

section

variable {env : Environment} {describe : Describe} {members : List TypeId} {made : List Described}
  {parts : UnionParts} {isInteger : Number → Bool} {other : Json → Json → Bool} {v : Json}

theorem groups_pos_iff {dialect : Dialect} {g : Graph} :
    0 < groups dialect other g members made v ↔
      memberAdmits dialect other g members made v = true := by
  have hbare : ∀ d ∈ made.map (·.definition), ∀ tag, d.bareType = some tag →
      admits dialect other d.toJson v = dialect.hasType v tag := fun _ _ _ => admits_bareType
  rw [groups, memberAdmits, Nat.add_pos_iff_pos_or_pos, countBranches_pos_iff hbare,
    Bool.or_eq_true, List.any_eq_true]
  refine or_congr (by cases literalAdmits dialect other g members v <;> simp) ?_
  rw [or_iff_right Bool.false_ne_true]
  simp only [List.mem_map, exists_exists_and_eq_and, Bool.and_eq_true, bne_iff_ne]
  refine exists_congr fun m => and_congr_right fun _ => ⟨fun hadmits => ⟨?_, hadmits⟩, And.right⟩
  intro hundefined
  rw [admits_bareType hundefined, Dialect.hasType_undefined] at hadmits
  cases hadmits

theorem any_values (h : Sorts env .empty members made parts)
    (hkeys : ∀ value ∈ literalValues env.graph members, value.KeysDiffer) :
    parts.values.any (·.equal v) =
      literalAdmits (.byValue isInteger) other env.graph members v := by
  rw [h.literals_eq, literalAdmits]
  simp only [admits_literal]
  exact Json.any_distinct fun a ha b hb hsame =>
    congrFun (Json.equal_of_same (hkeys a ha) (hkeys b hb) hsame) v

theorem countP_branches_eq (h : Sorts env .empty members made parts)
    (hkeys : ∀ value ∈ literalValues env.graph members, value.KeysDiffer) :
    parts.branches.countP (fun d => admits (.byValue isInteger) other d.toJson v) =
      if UnionParts.isBooleanPair parts.values then
        countBranches ((Dialect.byValue isInteger).hasType v)
          (fun d => admits (.byValue isInteger) other d.toJson v) (made.map (·.definition))
          (literalAdmits (.byValue isInteger) other env.graph members v)
      else groups (.byValue isInteger) other env.graph members made v := by
  have hvalues := h.literals_eq
  have hdiffer : parts.values.Pairwise fun a b => a.same b = false :=
    hvalues ▸ Json.distinct_pairwise _
  have hkeys' : ∀ value ∈ parts.values, value.KeysDiffer := by
    rw [hvalues]
    exact fun value hvalue => hkeys value (Json.mem_of_mem_distinct hvalue)
  rw [countP_branches (Dialect.hasType_undefined _ v) (fun _ => admits_setTypes) h,
    countP_valueBranch_admits hkeys', any_values h hkeys]
  cases hpair : UnionParts.isBooleanPair parts.values with
  | true =>
      rw [if_pos rfl, if_pos rfl, Nat.add_zero, Bool.true_and, ← any_values h hkeys,
        any_booleanPair hpair hdiffer]
  | false =>
      rw [if_neg Bool.false_ne_true, if_neg Bool.false_ne_true, Bool.false_and, Nat.add_comm]
      rfl

/-- A union accepts what one of its members accepts; where exactly one branch must accept a value,
this holds if no two groups of members do. -/
theorem unionDefinition_admits_iff {ctx : Context} {p p' : Progress} {d : Definition}
    (h : (unionDefinition env describe members ctx Dict.empty).on p = (.ok d, p'))
    (hkeys : ∀ value ∈ literalValues env.graph members, value.KeysDiffer) :
    ∃ made, Describes describe p made p' ∧ ofParts env (notLiteral env.graph members) made ∧
      ((literalValues env.graph members ≠ [] ∨
          ∃ m ∈ made, m.definition.bareType ≠ some "undefined") →
        ∀ isInteger other v,
          (ctx.unionKeyword = .oneOf →
            groups (.byValue isInteger) other env.graph members made v ≤ 1) →
          (admits (.byValue isInteger) other d.toJson v = true ↔
            memberAdmits (.byValue isInteger) other env.graph members made v = true)) := by
  obtain ⟨parts, p₁, hparts, hpure⟩ := Run.on_bind_eq_ok.1 h
  cases hpure
  obtain ⟨made, hmade, hsorts⟩ := unionMembers_ok hparts
  refine ⟨made, hmade, hsorts.ofParts, fun hmembers isInteger other v hone => ?_⟩
  have hbranches : parts.branches ≠ [] := by
    rw [ne_eq, ← List.isEmpty_iff, isEmpty_branches_iff hsorts, hsorts.literals_eq]
    rintro ⟨hvalues, hundefined⟩
    rcases hmembers with hliteral | ⟨m, hm, hdefined⟩
    · exact Json.distinct_ne_nil hliteral hvalues
    · exact hdefined (hundefined _ (List.mem_map_of_mem hm))
  rw [admits_write _ hbranches, ← groups_pos_iff, countP_branches_eq hsorts hkeys]
  split
  · exact decidesCount_iff _ countBranches_extra_le countBranches_extra_pos hone
  · exact decidesCount_iff _ (Nat.le_refl _) id hone

end

/-! ## A level -/

def levelMembers : List TypeId :=
  [⟨"low"⟩, ⟨"number"⟩, ⟨"true"⟩, ⟨"undefined"⟩, ⟨"string | null"⟩]

/-- The members of a union: two literal types, a bare type, undefined, and a union. -/
def levelGraph : Graph where
  modules := []
  declarations := ∅
  symbols := ∅
  types := .ofEntries [
    (⟨"low"⟩, ⟨"low", none, .stringLiteral "low"⟩),
    (⟨"true"⟩, ⟨"true", none, .booleanLiteral true⟩),
    (⟨"number"⟩, ⟨"number", none, .number⟩),
    (⟨"string"⟩, ⟨"string", none, .string⟩),
    (⟨"null"⟩, ⟨"null", none, .null⟩),
    (⟨"undefined"⟩, ⟨"undefined", none, .undefined⟩),
    (⟨"string | null"⟩, ⟨"string | null", none, .union [⟨"string"⟩, ⟨"null"⟩]⟩)]
  diagnostics := []
  strictNullChecks := false

def levelEnvironment : Environment := ⟨levelGraph, .default, .empty⟩

def describeLevel : Describing Definition :=
  unionDefinition levelEnvironment (define levelEnvironment) levelMembers (.standing false)
    Dict.empty

theorem unionDefinition_admits_iff_level :
    ∃ d p, describeLevel.on .initial = (.ok d, p) ∧
      (∀ value ∈ literalValues levelGraph levelMembers, value.KeysDiffer) ∧
      ∃ made, Describes (define levelEnvironment) .initial made p ∧
        ofParts levelEnvironment (notLiteral levelGraph levelMembers) made ∧
        ∀ isInteger other v, groups (.byValue isInteger) other levelGraph levelMembers made v ≤ 1 →
          (admits (.byValue isInteger) other d.toJson v = true ↔
            memberAdmits (.byValue isInteger) other levelGraph levelMembers made v = true) := by
  obtain ⟨d, p, hrun, -⟩ : ∃ d p, describeLevel.on .initial = (.ok d, p) ∧
      d.contains "oneOf" = true := Run.exists_ok (by decide +kernel)
  have hkeys : ∀ value ∈ literalValues levelGraph levelMembers, value.KeysDiffer := by
    decide +kernel
  obtain ⟨made, hmade, hparts, hadmits⟩ := unionDefinition_admits_iff hrun hkeys
  have hliteral : literalValues levelGraph levelMembers ≠ [] :=
    List.ne_nil_of_length_pos (by decide +kernel)
  exact ⟨d, p, hrun, hkeys, made, hmade, hparts, fun isInteger other v hone =>
    hadmits (.inl hliteral) isInteger other v fun _ => hone⟩

end Schema

end TypeSchema
