import TypeSchema.Document
import TypeSchema.Proofs.Json.Sameness
import TypeSchema.Proofs.Validation.Unions

/-!
# Null after widening

Widening is to make null valid.  It does where a type takes null in and where a definition becomes
a branch beside null.  But a definition that lists branches only gets one more of them.  Whatever
stands beside the list may refuse null still, and where exactly one branch must fit, a branch that
fits null already is one too many.
-/

namespace TypeSchema

namespace Definition

variable {d : Definition} {keyword : String}

def without (d : Definition) (keyword : String) : Definition :=
  ⟨d.entries.filter (·.1 != keyword), d.nodup.sublist (List.filter_sublist.map _)⟩

theorem find?_without (d : Definition) (keyword key : String) :
    (d.without keyword).find? key = if key = keyword then none else d.find? key := by
  split
  · rename_i h
    refine Option.eq_none_iff_forall_ne_some.2 fun value hvalue => ?_
    have hmem := Dict.mem_entries_iff.2 hvalue
    simp [without, h] at hmem
  · rename_i h
    refine Option.ext fun value => ?_
    simp [← Dict.mem_entries_iff, without, h]

theorem find?_of_isPlain (h : d.isPlain = true) {key : String}
    (hkey : key ≠ "type" ∧ key ≠ "description") : d.find? key = none := by
  refine Option.eq_none_iff_forall_ne_some.2 fun value hvalue => ?_
  have hplain := List.all_eq_true.1 h key (Dict.mem_keys_iff.2 ⟨value, hvalue⟩)
  simp [hkey] at hplain

theorem unionKeyword_of_isPlain (h : d.isPlain = true) : d.unionKeyword = none := by
  simp [unionKeyword, find?_of_isPlain h]

end Definition

namespace Validation

variable {dialect : Dialect} {definitions : Entries String Json} {d d' : Definition} {depth : Nat}
  {answer : Bool}

/-! ## Keywords that null meets -/

theorem fitsFormat_null (format : Option Json) : dialect.fitsFormat format .null = true := by
  unfold Dialect.fitsFormat
  split <;> first | contradiction | rfl

theorem hasRequired_null (names : Option Json) : hasRequired names .null = true := by
  unfold hasRequired
  split <;> first | contradiction | rfl

theorem hasMinItems_null (least : Option Json) : hasMinItems least .null = true := by
  unfold hasMinItems
  split <;> first | contradiction | rfl

section

variable {test : Json → Json → Option Bool} {keyword : String → Option Json}

theorem testItems_null (items additional : Option Json) :
    testItems test items additional .null = some true := by
  unfold testItems
  split <;> first | contradiction | rfl

theorem check_null_eq_some_iff : check test dialect keyword .null = some answer ↔
    ∃ a b c, testBranches test all (keyword "allOf") .null = some a ∧
      testBranches test any (keyword "anyOf") .null = some b ∧
      testBranches test one (keyword "oneOf") .null = some c ∧
      (dialect.fitsType (keyword "type") .null && dialect.fitsEnum (keyword "enum") .null &&
        a && b && c) = answer := by
  simp only [check, fitsFormat_null, hasRequired_null, hasMinItems_null, testItems_null]
  rcases testBranches test all (keyword "allOf") .null with _ | a
  all_goals rcases testBranches test any (keyword "anyOf") .null with _ | b
  all_goals rcases testBranches test one (keyword "oneOf") .null with _ | c
  all_goals simp [tally, testFields, all, Bool.and_assoc]

/-- The verdict is that of the branches and that of everything beside them. -/
theorem check_null_split (kind : UnionKeyword) :
    check test dialect keyword .null = some answer ↔ ∃ beside own,
      check test dialect (fun key => if key = kind.text then none else keyword key) .null =
        some beside ∧
      testBranches test kind.decides (keyword kind.text) .null = some own ∧
      (beside && own) = answer := by
  simp only [check_null_eq_some_iff]
  cases kind with
  | oneOf =>
      constructor
      · rintro ⟨a, b, c, ha, hb, hc, rfl⟩
        exact ⟨_, c, ⟨a, b, true, ha, hb, rfl, rfl⟩, hc, by simp [UnionKeyword.text]⟩
      · rintro ⟨_, own, ⟨a, b, _, ha, hb, hnone, rfl⟩, hown, rfl⟩
        cases hnone
        exact ⟨a, b, own, ha, hb, hown, by simp [UnionKeyword.text]⟩
  | anyOf =>
      constructor
      · rintro ⟨a, b, c, ha, hb, hc, rfl⟩
        exact ⟨_, b, ⟨a, true, c, ha, rfl, hc, rfl⟩, hb, by
          simp [UnionKeyword.text, Bool.and_assoc, Bool.and_comm b]⟩
      · rintro ⟨_, own, ⟨a, _, c, ha, hnone, hc, rfl⟩, hown, rfl⟩
        cases hnone
        exact ⟨a, own, c, ha, hown, hc, by
          simp [UnionKeyword.text, Bool.and_assoc, Bool.and_comm own]⟩

theorem mapM_eq_some_map {α : Type} {test : α → Option Bool} {items : List α}
    {answers : List Bool} (h : items.mapM test = some answers) :
    (∀ item ∈ items, test item = some ((test item).getD false)) ∧
      items.map (fun item => (test item).getD false) = answers := by
  induction items generalizing answers with
  | nil => simpa using h
  | cons item rest ih =>
      simp only [List.mapM_cons, bind, Option.bind_eq_some_iff] at h
      obtain ⟨answer, hitem, answers, hrest, hpure⟩ := h
      cases hpure
      obtain ⟨hall, rfl⟩ := ih hrest
      exact ⟨List.forall_mem_cons.2 ⟨by simp [hitem], hall⟩, by simp [hitem]⟩

theorem testBranches_eq_some_iff {decides : List Bool → Bool} {branches : List Json} {v : Json}
    {own : Bool} : testBranches test decides (some (.arr branches)) v = some own ↔
      ∃ accepts : Json → Bool, (∀ branch ∈ branches, test branch v = some (accepts branch)) ∧
        decides (branches.map accepts) = own := by
  change (branches.mapM (test · v)).map decides = some own ↔ _
  rw [Option.map_eq_some_iff]
  constructor
  · rintro ⟨answers, hanswers, rfl⟩
    obtain ⟨hall, rfl⟩ := mapM_eq_some_map hanswers
    exact ⟨_, hall, rfl⟩
  · rintro ⟨accepts, hall, rfl⟩
    exact ⟨_, mapM_of_forall hall, rfl⟩

end

/-! ## Verdicts on null -/

section

variable (dialect : Dialect) (definitions : Entries String Json)

def VerdictOnNull (schema : Json) (answer : Bool) : Prop :=
  ∃ depth, validate dialect definitions depth schema .null = some answer

def AdmitsNull (schema : Json) : Prop := VerdictOnNull dialect definitions schema true

/-- Some verdict is reached: no references lead in a circle, and the branches are schemas. -/
def JudgesNull (schema : Json) : Prop := ∃ answer, VerdictOnNull dialect definitions schema answer

/-- The verdict of a list of branches. -/
def VerdictOfBranches (kind : UnionKeyword) (branches : List Json) (own : Bool) : Prop :=
  ∃ depth, testBranches (validate dialect definitions depth) kind.decides (some (.arr branches))
    .null = some own

end

/-- Of the branches, as many have the property as the keyword wants. -/
def Chooses (p : Json → Prop) : UnionKeyword → List Json → Prop
  | .oneOf, branches => ∃ before branch after, branches = before ++ branch :: after ∧ p branch ∧
      ∀ other ∈ before ++ after, ¬ p other
  | .anyOf, branches => ∃ branch ∈ branches, p branch

theorem VerdictOnNull.admits_iff {schema : Json}
    (h : VerdictOnNull dialect definitions schema answer) :
    AdmitsNull dialect definitions schema ↔ answer = true := by
  constructor
  · rintro ⟨depth', hadmits⟩
    obtain ⟨depth, hanswer⟩ := h
    cases (validate_stays_from (Nat.le_max_left depth depth') hanswer).symm.trans
      (validate_stays_from (Nat.le_max_right depth depth') hadmits)
    rfl
  · rintro rfl
    exact h

theorem decides_iff_chooses {p : Json → Prop} {accepts : Json → Bool} {kind : UnionKeyword}
    {branches : List Json} (h : ∀ branch ∈ branches, p branch ↔ accepts branch = true) :
    kind.decides (branches.map accepts) = true ↔ Chooses p kind branches := by
  rw [decides_map]
  cases kind with
  | oneOf =>
      simp only [UnionKeyword.decidesCount, beq_iff_eq, List.countP_eq_length_filter,
        List.length_eq_one_iff, List.filter_eq_cons_iff, List.filter_eq_nil_iff, Chooses]
      constructor
      · rintro ⟨branch, before, after, rfl, hbefore, hbranch, hafter⟩
        refine ⟨before, branch, after, rfl, (h branch (by simp)).2 hbranch, fun other hother => ?_⟩
        rw [h other (by simpa using (List.mem_append.1 hother).imp_right .inr)]
        exact (List.mem_append.1 hother).elim (hbefore other) (hafter other)
      · rintro ⟨before, branch, after, rfl, hbranch, hothers⟩
        refine ⟨branch, before, after, rfl, fun other hother => ?_, (h branch (by simp)).1 hbranch,
          fun other hother => ?_⟩
        · rw [← h other (by simp [hother])]
          exact hothers other (List.mem_append_left _ hother)
        · rw [← h other (by simp [hother])]
          exact hothers other (List.mem_append_right _ hother)
  | anyOf =>
      simp only [UnionKeyword.decidesCount, decide_eq_true_eq, List.countP_pos_iff, Chooses]
      exact exists_congr fun branch => and_congr_right fun hbranch => (h branch hbranch).symm

theorem exists_accepts {branches : List Json}
    (h : ∀ branch ∈ branches, JudgesNull dialect definitions branch) :
    ∃ depth, ∃ accepts : Json → Bool, ∀ branch ∈ branches,
      validate dialect definitions depth branch .null = some (accepts branch) := by
  suffices ∃ depth, ∀ branch ∈ branches, ∃ answer,
      validate dialect definitions depth branch .null = some answer by
    obtain ⟨depth, hall⟩ := this
    refine ⟨depth, fun branch => (validate dialect definitions depth branch .null).getD false,
      fun branch hbranch => ?_⟩
    obtain ⟨answer, hanswer⟩ := hall branch hbranch
    simp only [hanswer, Option.getD_some]
  induction branches with
  | nil => exact ⟨0, List.forall_mem_nil _⟩
  | cons branch rest ih =>
      obtain ⟨⟨answer, depth, hanswer⟩, hrest⟩ := List.forall_mem_cons.1 h
      obtain ⟨depth', hall⟩ := ih hrest
      refine ⟨max depth depth', List.forall_mem_cons.2 ⟨⟨answer, ?_⟩, fun other hother => ?_⟩⟩
      · exact validate_stays_from (Nat.le_max_left _ _) hanswer
      · obtain ⟨answer', hanswer'⟩ := hall other hother
        exact ⟨answer', validate_stays_from (Nat.le_max_right _ _) hanswer'⟩

theorem verdictOfBranches_iff {kind : UnionKeyword} {branches : List Json} {own : Bool} :
    VerdictOfBranches dialect definitions kind branches own ↔
      (∀ branch ∈ branches, JudgesNull dialect definitions branch) ∧
        (own = true ↔ Chooses (AdmitsNull dialect definitions) kind branches) := by
  constructor
  · rintro ⟨depth, hown⟩
    obtain ⟨accepts, hall, rfl⟩ := testBranches_eq_some_iff.1 hown
    exact ⟨fun branch hbranch => ⟨_, depth, hall branch hbranch⟩, decides_iff_chooses
      fun branch hbranch => VerdictOnNull.admits_iff ⟨depth, hall branch hbranch⟩⟩
  · rintro ⟨hjudged, hown⟩
    obtain ⟨depth, accepts, hall⟩ := exists_accepts hjudged
    refine ⟨depth, testBranches_eq_some_iff.2 ⟨accepts, hall, Bool.eq_iff_iff.2 ?_⟩⟩
    rw [hown]
    exact decides_iff_chooses fun branch hbranch =>
      VerdictOnNull.admits_iff ⟨depth, hall branch hbranch⟩

/-! ## Definitions that list branches -/

section

variable {kind : UnionKeyword} {branches : List Json}

theorem verdict_of_plain (h : ∀ key ∈ readKeywords, key ≠ "type" → d.find? key = none) :
    VerdictOnNull dialect definitions d.toJson (dialect.fitsType (d.find? "type") .null) :=
  ⟨1, by rw [validate_of_no_reference (h "$ref" (by decide) (by decide)), check_type h]⟩

theorem verdict_congr (h : ∀ key, d.find? key = d'.find? key) :
    VerdictOnNull dialect definitions d.toJson answer ↔
      VerdictOnNull dialect definitions d'.toJson answer :=
  exists_congr fun depth => by rw [validate_congr fun key _ => h key]

theorem validate_of_reference {ref : Json} (h : d.find? "$ref" = some ref) (depth : Nat)
    (v : Json) : validate dialect definitions (depth + 1) d.toJson v =
      (target definitions ref).bind fun schema => validate dialect definitions depth schema v := by
  have href : Entries.find? "$ref" d.entries = some ref := h
  simp only [Definition.toJson, Json.ofDict, validate, href]

/-- What stands beside a reference is not read. -/
theorem verdict_of_reference {ref : Json} (h : d.find? "$ref" = some ref) (kind : UnionKeyword) :
    VerdictOnNull dialect definitions d.toJson answer ↔
      VerdictOnNull dialect definitions (d.without kind.text).toJson answer := by
  have hbeside : (d.without kind.text).find? "$ref" = some ref := by
    rw [Definition.find?_without, if_neg (by cases kind <;> decide), h]
  refine exists_congr fun depth => ?_
  cases depth with
  | zero => rfl
  | succ depth => rw [validate_of_reference h, validate_of_reference hbeside]

theorem verdict_split (hlist : d.find? kind.text = some (.arr branches))
    (href : d.find? "$ref" = none) : VerdictOnNull dialect definitions d.toJson answer ↔
      ∃ beside own, VerdictOnNull dialect definitions (d.without kind.text).toJson beside ∧
        VerdictOfBranches dialect definitions kind branches own ∧ (beside && own) = answer := by
  have hbeside : (d.without kind.text).find? "$ref" = none := by
    rw [Definition.find?_without, href, ite_self]
  have hothers : (d.without kind.text).find? = fun key =>
      if key = kind.text then none else d.find? key :=
    funext (Definition.find?_without d kind.text)
  constructor
  · rintro ⟨_ | depth, hanswer⟩
    · cases hanswer
    · rw [validate_of_no_reference href, check_null_split kind, ← hothers, hlist] at hanswer
      obtain ⟨beside, own, hcheck, hown, hboth⟩ := hanswer
      refine ⟨beside, own, ⟨depth + 1, ?_⟩, ⟨depth, hown⟩, hboth⟩
      rw [validate_of_no_reference hbeside, hcheck]
  · rintro ⟨beside, own, ⟨depth, hcheck⟩, ⟨depth', hown⟩, hboth⟩
    have hle : depth ≤ max depth depth' + 1 := Nat.le_succ_of_le (Nat.le_max_left _ _)
    refine ⟨max depth depth' + 1, ?_⟩
    rw [validate_of_no_reference href, check_null_split kind, ← hothers, hlist]
    refine ⟨beside, own, ?_, ?_, hboth⟩
    · rw [← validate_of_no_reference hbeside]
      exact validate_stays_from hle hcheck
    · have hstays (schema v : Json) : Stays (validate dialect definitions depth' schema v)
          (validate dialect definitions (max depth depth') schema v) :=
        fun _ => validate_stays_from (Nat.le_max_right _ _)
      exact testBranches_stays hstays kind.decides _ .null own hown

theorem judgesNull_iff (hlist : d.find? kind.text = some (.arr branches)) :
    JudgesNull dialect definitions d.toJson ↔
      JudgesNull dialect definitions (d.without kind.text).toJson ∧ (d.find? "$ref" = none →
        ∀ branch ∈ branches, JudgesNull dialect definitions branch) := by
  cases href : d.find? "$ref" with
  | some ref => simp [JudgesNull, verdict_of_reference href kind]
  | none =>
      simp only [JudgesNull, verdict_split hlist href, verdictOfBranches_iff]
      constructor
      · rintro ⟨_, beside, own, hbeside, ⟨hjudged, -⟩, -⟩
        exact ⟨⟨beside, hbeside⟩, fun _ => hjudged⟩
      · rintro ⟨⟨beside, hbeside⟩, hjudged⟩
        by_cases hchosen : Chooses (AdmitsNull dialect definitions) kind branches
        · exact ⟨_, beside, true, hbeside, ⟨hjudged trivial, by simp [hchosen]⟩, rfl⟩
        · exact ⟨_, beside, false, hbeside, ⟨hjudged trivial, by simp [hchosen]⟩, rfl⟩

theorem admitsNull_iff (hlist : d.find? kind.text = some (.arr branches)) :
    AdmitsNull dialect definitions d.toJson ↔
      AdmitsNull dialect definitions (d.without kind.text).toJson ∧ (d.find? "$ref" = none →
        (∀ branch ∈ branches, JudgesNull dialect definitions branch) ∧
          Chooses (AdmitsNull dialect definitions) kind branches) := by
  cases href : d.find? "$ref" with
  | some ref => simp [AdmitsNull, verdict_of_reference href kind]
  | none =>
      rw [AdmitsNull, verdict_split hlist href]
      simp only [verdictOfBranches_iff, Bool.and_eq_true]
      constructor
      · rintro ⟨_, _, hbeside, ⟨hjudged, hown⟩, rfl, rfl⟩
        exact ⟨hbeside, fun _ => ⟨hjudged, hown.1 rfl⟩⟩
      · rintro ⟨hbeside, hbranches⟩
        obtain ⟨hjudged, hchosen⟩ := hbranches trivial
        exact ⟨true, true, hbeside, ⟨hjudged, by simp [hchosen]⟩, rfl, rfl⟩

theorem admitsNull_insert_iff :
    AdmitsNull dialect definitions (Definition.toJson (d.insert kind.text (.arr branches))) ↔
      AdmitsNull dialect definitions (d.without kind.text).toJson ∧ (d.find? "$ref" = none →
        (∀ branch ∈ branches, JudgesNull dialect definitions branch) ∧
          Chooses (AdmitsNull dialect definitions) kind branches) := by
  have hbeside (key : String) : (Definition.without (d.insert kind.text (.arr branches))
      kind.text).find? key = (d.without kind.text).find? key := by
    rw [Definition.find?_without, Definition.find?_without]
    split
    · rfl
    · rename_i hkey
      exact Dict.find?_insert_of_ne _ hkey _
  have href : (d.insert kind.text (.arr branches)).find? "$ref" = d.find? "$ref" :=
    Dict.find?_insert_of_ne _ (by cases kind <;> decide) _
  rw [admitsNull_iff (Dict.find?_insert_self _ _ _), href]
  exact and_congr_left' (verdict_congr hbeside)

theorem chooses_append {p : Json → Prop} {branch : Json} (h : p branch) :
    Chooses p kind (branches ++ [branch]) ↔ (kind = .oneOf → ∀ other ∈ branches, ¬ p other) := by
  cases kind with
  | oneOf =>
      constructor
      · rintro ⟨before, chosen, after, heq, -, hothers⟩
        rcases List.eq_nil_or_concat after with rfl | ⟨rest, last, rfl⟩
        · obtain ⟨rfl, -⟩ := List.append_inj' heq rfl
          intro _ other hother
          exact hothers other (by simpa using hother)
        · rw [List.concat_eq_append, ← List.cons_append, ← List.append_assoc] at heq
          obtain ⟨-, hlast⟩ := List.append_inj' heq rfl
          cases hlast
          exact absurd h (hothers branch (by simp))
      · intro hothers
        exact ⟨branches, branch, [], rfl, h, by simpa using hothers rfl⟩
  | anyOf =>
      constructor
      · rintro - hkind
        cases hkind
      · rintro -
        exact ⟨branch, by simp, h⟩

/-! ## Widening -/

theorem fitsType_null_of_any {tags : List Json} (h : tags.any (·.same (.str "null")) = true) :
    dialect.fitsType (some (.arr tags)) .null = true := by
  obtain ⟨tag, htag, hsame⟩ := List.any_eq_true.1 h
  refine List.any_eq_true.2 ⟨tag, htag, ?_⟩
  rw [Json.eq_str_of_same hsame]
  rfl

theorem admitsNull_of_type (hothers : ∀ key ∈ readKeywords, key ≠ "type" → d.find? key = none)
    {types : Option Json} (htypes : d.find? "type" = types)
    (h : dialect.fitsType types .null = true) :
    AdmitsNull dialect definitions d.toJson := by
  have hverdict : VerdictOnNull dialect definitions d.toJson _ := verdict_of_plain hothers
  rwa [htypes, h] at hverdict

theorem admitsNull_nullBranch : AdmitsNull dialect definitions Definition.nullBranch :=
  admitsNull_of_type (d := Definition.ofType "null")
    (fun _ _ hkey => Dict.find?_insert_of_ne _ hkey _) (Dict.find?_insert_self _ _ _) rfl

/-- A definition that lists no branches becomes one itself. -/
theorem addNullBranch_unlisted (h : d.unionKeyword = none) :
    AdmitsNull dialect definitions d.addNullBranch.toJson ↔
      JudgesNull dialect definitions d.toJson := by
  have hadded : d.addNullBranch =
      Dict.empty.insert "anyOf" (.arr [d.toJson, Definition.nullBranch]) := by
    simp only [Definition.addNullBranch, h]
  have hlist : d.addNullBranch.find? UnionKeyword.anyOf.text =
      some (.arr [d.toJson, Definition.nullBranch]) := by
    rw [hadded]
    exact Dict.find?_insert_self _ _ _
  have hnull : AdmitsNull dialect definitions Definition.nullBranch := admitsNull_nullBranch
  rw [admitsNull_iff hlist]
  constructor
  · rintro ⟨-, hbranches⟩
    exact (hbranches (by rw [hadded]; rfl)).1 _ List.mem_cons_self
  · intro hjudged
    have hnothing (key : String) :
        (d.addNullBranch.without UnionKeyword.anyOf.text).find? key = none := by
      rw [Definition.find?_without, hadded]
      split
      · rfl
      · rename_i hkey
        exact Dict.find?_insert_of_ne _ hkey _
    refine ⟨admitsNull_of_type (fun key _ _ => hnothing key) (hnothing "type") rfl, fun _ => ?_⟩
    refine ⟨fun branch hbranch => ?_, Definition.nullBranch, by simp, hnull⟩
    rcases List.mem_cons.1 hbranch with rfl | hbranch
    · exact hjudged
    · rw [List.mem_singleton.1 hbranch]
      exact ⟨true, hnull⟩

theorem makeNullable_unlisted (h : d.unionKeyword = none) :
    AdmitsNull dialect definitions d.makeNullable.toJson ↔
      JudgesNull dialect definitions d.toJson := by
  unfold Definition.makeNullable
  split
  · rename_i hplain
    have hothers : ∀ key ∈ readKeywords, key ≠ "type" → d.find? key = none := by
      intro key hread hkey
      refine Definition.find?_of_isPlain hplain ⟨hkey, ?_⟩
      rintro rfl
      exact absurd hread (by decide)
    have hjudged : JudgesNull dialect definitions d.toJson := ⟨_, verdict_of_plain hothers⟩
    have hinserted (types : Json) : ∀ key ∈ readKeywords, key ≠ "type" →
        (d.insert "type" types).find? key = none := fun key hread hkey => by
      rw [Dict.find?_insert_of_ne _ hkey, hothers key hread hkey]
    split
    · rename_i tag htag
      refine iff_of_true ?_ hjudged
      split
      · rename_i hnull
        rw [hnull] at htag
        exact admitsNull_of_type hothers htag rfl
      · refine admitsNull_of_type (hinserted _) (Dict.find?_insert_self _ _ _) ?_
        exact fitsType_null_of_any (by simp [Json.same])
    · rename_i tags htags
      refine iff_of_true ?_ hjudged
      split
      · rename_i hnull
        exact admitsNull_of_type hothers htags (fitsType_null_of_any hnull)
      · refine admitsNull_of_type (hinserted _) (Dict.find?_insert_self _ _ _) ?_
        exact fitsType_null_of_any (by simp [Json.same])
    · exact addNullBranch_unlisted h
  · exact addNullBranch_unlisted h

end

/-- Null fits the branches as they are, if one of them is meant for null, or else with one more. -/
def TakesNull (dialect : Dialect) (definitions : Entries String Json) (kind : UnionKeyword)
    (branches : List Json) : Prop :=
  if branches.any Definition.isNullBranch then
    Chooses (AdmitsNull dialect definitions) kind branches
  else kind = .oneOf → ∀ branch ∈ branches, ¬ AdmitsNull dialect definitions branch

theorem makeNullable_listed {kind : UnionKeyword} {branches : List Json}
    (h : d.unionKeyword = some (kind.text, branches)) :
    AdmitsNull dialect definitions d.makeNullable.toJson ↔
      AdmitsNull dialect definitions (d.without kind.text).toJson ∧ (d.find? "$ref" = none →
        (∀ branch ∈ branches, JudgesNull dialect definitions branch) ∧
          TakesNull dialect definitions kind branches) := by
  have hplain : d.isPlain = false := by
    by_contra hplain
    rw [Definition.unionKeyword_of_isPlain (Bool.not_eq_false _ ▸ hplain)] at h
    cases h
  have hlist := (Definition.unionKeyword_eq_some h).2
  have hwidened : d.makeNullable = if branches.any Definition.isNullBranch then d
      else d.insert kind.text (.arr (branches ++ [Definition.nullBranch])) := by
    simp only [Definition.makeNullable, hplain, Bool.false_eq_true, if_false,
      Definition.addNullBranch, h]
  rw [hwidened]
  unfold TakesNull
  split
  · exact admitsNull_iff hlist
  · have hnull : AdmitsNull dialect definitions Definition.nullBranch := admitsNull_nullBranch
    have hjudged : JudgesNull dialect definitions Definition.nullBranch := ⟨true, hnull⟩
    simp only [admitsNull_insert_iff, chooses_append hnull, List.forall_mem_append,
      List.forall_mem_singleton, hjudged, and_true]

theorem makeNullable_admits_iff (dialect : Dialect) (definitions : Entries String Json)
    (d : Definition) :
    AdmitsNull dialect definitions d.makeNullable.toJson ↔
      JudgesNull dialect definitions d.toJson ∧
        ∀ kind branches, d.unionKeyword = some (UnionKeyword.text kind, branches) →
          AdmitsNull dialect definitions (d.without kind.text).toJson ∧
            (d.find? "$ref" = none → TakesNull dialect definitions kind branches) := by
  cases hunion : d.unionKeyword with
  | none =>
      rw [makeNullable_unlisted hunion]
      exact (and_iff_left fun _ _ hnone => by cases hnone).symm
  | some listed =>
      obtain ⟨keyword, branches⟩ := listed
      obtain ⟨kind, rfl⟩ : ∃ kind, keyword = UnionKeyword.text kind := by
        rcases (Definition.unionKeyword_eq_some hunion).1 with rfl | rfl
        · exact ⟨.oneOf, rfl⟩
        · exact ⟨.anyOf, rfl⟩
      rw [makeNullable_listed hunion, judgesNull_iff (Definition.unionKeyword_eq_some hunion).2]
      constructor
      · rintro ⟨hbeside, hboth⟩
        refine ⟨⟨⟨true, hbeside⟩, fun href => (hboth href).1⟩, fun kind' branches' heq => ?_⟩
        simp only [Option.some.injEq, Prod.mk.injEq] at heq
        obtain ⟨htext, rfl⟩ := heq
        obtain rfl : kind = kind' := by
          cases kind <;> cases kind' <;> first | rfl | exact absurd htext (by decide)
        exact ⟨hbeside, fun href => (hboth href).2⟩
      · rintro ⟨⟨-, hjudged⟩, hall⟩
        obtain ⟨hbeside, htakes⟩ := hall kind branches rfl
        exact ⟨hbeside, fun href => ⟨hjudged href, htakes href⟩⟩

/-! ## Null that fits already -/

open Schema Document

/-- A dial with a level that is a gauge, a number or null, and is said to be nullable. -/
def dialGraph : Graph where
  modules := [⟨"dial.ts", false, [⟨"Gauge"⟩, ⟨"Dial"⟩]⟩]
  declarations := .ofEntries [
    (⟨"Gauge"⟩, { Declaration.blank with kind := .interface, symbol := some ⟨"Gauge"⟩ }),
    (⟨"Dial"⟩, { Declaration.blank with kind := .interface, symbol := some ⟨"Dial"⟩ })]
  symbols := .ofEntries [
    (⟨"Gauge"⟩, { Symbol.blank with
      name := "Gauge", qualifiedName := "Gauge", type := some ⟨"Gauge"⟩,
      declarations := [⟨"Gauge"⟩] }),
    (⟨"unit"⟩, { Symbol.blank with name := "unit", type := some ⟨"string"⟩ }),
    (⟨"Dial"⟩, { Symbol.blank with
      name := "Dial", qualifiedName := "Dial", type := some ⟨"Dial"⟩,
      declarations := [⟨"Dial"⟩] }),
    (⟨"level"⟩, { Symbol.blank with
      name := "level", type := some ⟨"Gauge | number | null"⟩, documentation := ["@nullable"] })]
  types := .ofEntries [
    (⟨"string"⟩, ⟨"string", none, .string⟩),
    (⟨"number"⟩, ⟨"number", none, .number⟩),
    (⟨"null"⟩, ⟨"null", none, .null⟩),
    (⟨"Gauge"⟩, ⟨"Gauge", some ⟨"Gauge"⟩,
      .object { ObjectType.blank with properties := [⟨"unit"⟩] }⟩),
    (⟨"Gauge | number | null"⟩, ⟨"Gauge | number | null", none,
      .union [⟨"Gauge"⟩, ⟨"number"⟩, ⟨"null"⟩]⟩),
    (⟨"Dial"⟩, ⟨"Dial", some ⟨"Dial"⟩,
      .object { ObjectType.blank with properties := [⟨"level"⟩] }⟩)]
  diagnostics := []
  strictNullChecks := true

def dialEnvironment : Environment := environment dialGraph .default ⟨∅, ∅, ∅⟩

def placeOfLevel : Context := ⟨true, .oneOf, some ⟨"level"⟩, none⟩

/-- What a type is described as may refuse null although it is nullable. -/
theorem nullable_may_refuse_null :
    ¬ ∀ (env : Environment) (type : TypeId) (ctx : Context) (node : TypeNode) (remarks : Remarks)
      (d : Definition) (p : Progress), env.graph.typeNode type = .ok node →
      Remarks.of env node ctx = .ok remarks → remarks.isNullable = true →
      (define env type ctx).on .initial = (.ok d, p) →
      AdmitsNull Dialect.strict (registryJson p.registry).entries d.toJson := by
  intro hall
  obtain ⟨d, p, hrun, hrefused⟩ : ∃ d p,
      (define dialEnvironment ⟨"Gauge | number | null"⟩ placeOfLevel).on .initial = (.ok d, p) ∧
      decide (validate Dialect.strict (registryJson p.registry).entries 3 d.toJson .null =
        some false) = true := Run.exists_outcome (by decide +kernel)
  have hverdict : VerdictOnNull Dialect.strict (registryJson p.registry).entries d.toJson false :=
    ⟨3, of_decide_eq_true hrefused⟩
  have hadmits := hall _ _ _ _ _ d p rfl rfl (by decide +kernel) hrun
  cases hverdict.admits_iff.1 hadmits

end Validation

end TypeSchema
