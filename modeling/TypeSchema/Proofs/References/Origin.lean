import Mathlib.Data.List.Nodup
import TypeSchema.Proofs.Schema.Steps

/-!
# Where registered definitions come from

A name is reserved once, for one type, and nothing but the definition of that type is ever stored
under it.  A type that refers to a name by its own name is the one that the name was reserved for,
as long as names tell types apart.  An alias does not tell them apart: whatever types it stands for
are referred to by its name, and the first of them gives the definition.
-/

namespace TypeSchema.Schema

open Relation (ReflTransGen)

def DistinctNames (g : Graph) : Prop :=
  (g.types.values.map fun node => QualifiedName.stripModulePath node.name).Nodup

instance (g : Graph) : Decidable (DistinctNames g) :=
  inferInstanceAs (Decidable (List.Nodup _))

theorem DistinctNames.eq {g : Graph} (h : DistinctNames g) {type type' : TypeId}
    {node node' : TypeNode} (hnode : g.typeNode type = .ok node)
    (hnode' : g.typeNode type' = .ok node')
    (hname : QualifiedName.stripModulePath node.name = QualifiedName.stripModulePath node'.name) :
    type = type' := by
  unfold DistinctNames Dict.values Entries.values at h
  rw [List.map_map] at h
  exact congrArg Prod.fst
    (List.inj_on_of_nodup_map h (Graph.mem_types hnode) (Graph.mem_types hnode') hname)

variable {env : Environment} {p p' : Progress} {name : String} {type : TypeId} {ctx : Context}

/-! ## Names in the history -/

/-- What the history of a progress tells about the names in its registry. -/
structure Traced (env : Environment) (p : Progress) : Prop where
  registered : ∀ name, name ∈ p.registry.keys ↔ ∃ type ctx, .reserved name type ctx ∈ p.history
  reserved : ∀ name type ctx, .reserved name type ctx ∈ p.history →
    referenceOf env type ctx = .ok (some name)
  once : ∀ name type ctx type' ctx', .reserved name type ctx ∈ p.history →
    .reserved name type' ctx' ∈ p.history → type = type' ∧ ctx = ctx'
  filled : ∀ name type, .filled name type ∈ p.history → ∃ ctx, .reserved name type ctx ∈ p.history
  referred : ∀ name type ctx, .referred name type ctx ∈ p.history →
    referenceOf env type ctx = .ok (some name) ∧ name ∈ p.registry.keys
  stored : ∀ name d, p.registry.find? name = some d →
    ∃ type ctx, .reserved name type ctx ∈ p.history ∧ (RenderedFrom env name type ctx d ∨
      d = Dict.empty ∧ ∀ other, .filled name other ∉ p.history)

theorem traced_initial : Traced env .initial where
  registered name := by
    simp [Progress.initial, Dict.keys, EmptyCollection.emptyCollection, Dict.empty]
  reserved _ _ _ h := by simp [Progress.initial] at h
  once _ _ _ _ _ h := by simp [Progress.initial] at h
  filled _ _ h := by simp [Progress.initial] at h
  referred _ _ _ h := by simp [Progress.initial] at h
  stored _ _ h := by simp [Progress.initial] at h

theorem Traced.quiet (h : Traced env p) (quiet : Quiet p p') : Traced env p' := by
  obtain ⟨hregistry, hhistory, -⟩ := quiet
  constructor <;> rw [hhistory]
  · rw [hregistry]
    exact h.registered
  · exact h.reserved
  · exact h.once
  · exact h.filled
  · rw [hregistry]
    exact h.referred
  · rw [hregistry]
    exact h.stored

theorem Traced.reserve (h : Traced env p) (hname : referenceOf env type ctx = .ok (some name))
    (free : name ∉ p.registry.keys) : Traced env (p.reserve name type ctx) := by
  have hfree : ∀ type' ctx', .reserved name type' ctx' ∉ p.history := fun type' ctx' hmem =>
    free ((h.registered name).2 ⟨type', ctx', hmem⟩)
  constructor
  · intro other
    rw [Progress.registry_reserve, Dict.mem_keys_insert, h.registered other]
    constructor
    · rintro (rfl | ⟨type', ctx', hmem⟩)
      · exact ⟨type, ctx, List.mem_cons_self⟩
      · exact ⟨type', ctx', List.mem_cons_of_mem _ hmem⟩
    · rintro ⟨type', ctx', hmem⟩
      rcases List.mem_cons.1 hmem with heq | hmem
      · cases heq
        exact .inl rfl
      · exact .inr ⟨type', ctx', hmem⟩
  · intro other type' ctx' hmem
    rcases List.mem_cons.1 hmem with heq | hmem
    · cases heq
      exact hname
    · exact h.reserved other type' ctx' hmem
  · intro other type₁ ctx₁ type₂ ctx₂ h₁ h₂
    rcases List.mem_cons.1 h₁ with heq₁ | h₁ <;> rcases List.mem_cons.1 h₂ with heq₂ | h₂
    · cases heq₁
      cases heq₂
      exact ⟨rfl, rfl⟩
    · cases heq₁
      exact absurd h₂ (hfree _ _)
    · cases heq₂
      exact absurd h₁ (hfree _ _)
    · exact h.once other type₁ ctx₁ type₂ ctx₂ h₁ h₂
  · intro other type' hmem
    obtain ⟨ctx', hctx'⟩ := h.filled other type' (by simpa using hmem)
    exact ⟨ctx', List.mem_cons_of_mem _ hctx'⟩
  · intro other type' ctx' hmem
    obtain ⟨hname', hkeys⟩ := h.referred other type' ctx' (by simpa using hmem)
    exact ⟨hname', Dict.mem_keys_insert.2 (.inr hkeys)⟩
  · intro other d hd
    rw [Progress.registry_reserve, Dict.find?_insert] at hd
    split at hd
    · rename_i heq
      subst heq
      cases hd
      refine ⟨type, ctx, List.mem_cons_self, .inr ⟨rfl, fun type' hmem => ?_⟩⟩
      obtain ⟨ctx', hreserved⟩ := h.filled other type' (by simpa using hmem)
      exact hfree type' ctx' hreserved
    · obtain ⟨type', ctx', hreserved, hstored⟩ := h.stored other d hd
      exact ⟨type', ctx', List.mem_cons_of_mem _ hreserved, by simpa using hstored⟩

theorem Traced.fill (h : Traced env p) {d : Definition} (hd : RenderedFrom env name type ctx d)
    (hreserved : .reserved name type ctx ∈ p.history) : Traced env (p.fill name type d) := by
  have hname : name ∈ p.registry.keys := (h.registered name).2 ⟨type, ctx, hreserved⟩
  have hkeys : ∀ other, other ∈ (p.fill name type d).registry.keys ↔ other ∈ p.registry.keys := by
    intro other
    rw [Progress.registry_fill, Dict.keys_insert, if_pos hname]
  constructor
  · intro other
    rw [hkeys, h.registered other]
    simp
  · intro other type' ctx' hmem
    exact h.reserved other type' ctx' (by simpa using hmem)
  · intro other type₁ ctx₁ type₂ ctx₂ h₁ h₂
    exact h.once other type₁ ctx₁ type₂ ctx₂ (by simpa using h₁) (by simpa using h₂)
  · intro other type' hmem
    rcases List.mem_cons.1 hmem with heq | hmem
    · cases heq
      exact ⟨ctx, List.mem_cons_of_mem _ hreserved⟩
    · obtain ⟨ctx', hctx'⟩ := h.filled other type' hmem
      exact ⟨ctx', List.mem_cons_of_mem _ hctx'⟩
  · intro other type' ctx' hmem
    rw [hkeys]
    exact h.referred other type' ctx' (by simpa using hmem)
  · intro other d' hd'
    rw [Progress.registry_fill, Dict.find?_insert] at hd'
    split at hd'
    · rename_i heq
      subst heq
      cases hd'
      exact ⟨type, ctx, List.mem_cons_of_mem _ hreserved, .inl hd⟩
    · rename_i hne
      obtain ⟨type', ctx', hreserved', hstored⟩ := h.stored other d' hd'
      refine ⟨type', ctx', List.mem_cons_of_mem _ hreserved', ?_⟩
      simpa [hne, Ne.symm hne] using hstored

theorem Traced.refer (h : Traced env p) (hname : referenceOf env type ctx = .ok (some name))
    (taken : name ∈ p.registry.keys) : Traced env (p.refer name type ctx) := by
  constructor
  · intro other
    rw [Progress.registry_refer, h.registered other]
    simp
  · intro other type' ctx' hmem
    exact h.reserved other type' ctx' (by simpa using hmem)
  · intro other type₁ ctx₁ type₂ ctx₂ h₁ h₂
    exact h.once other type₁ ctx₁ type₂ ctx₂ (by simpa using h₁) (by simpa using h₂)
  · intro other type' hmem
    obtain ⟨ctx', hctx'⟩ := h.filled other type' (by simpa using hmem)
    exact ⟨ctx', List.mem_cons_of_mem _ hctx'⟩
  · intro other type' ctx' hmem
    rcases List.mem_cons.1 hmem with heq | hmem
    · cases heq
      exact ⟨hname, taken⟩
    · exact h.referred other type' ctx' hmem
  · intro other d hd
    obtain ⟨type', ctx', hreserved, hstored⟩ := h.stored other d hd
    exact ⟨type', ctx', List.mem_cons_of_mem _ hreserved, by simpa using hstored⟩

theorem Traced.step (h : Traced env p) (hstep : Step env p p') : Traced env p' := by
  cases hstep with
  | notice n => exact h.quiet (quiet_notice p n)
  | markAbsent property => exact h.quiet (quiet_markAbsent p property)
  | reserve hname free => exact h.reserve hname free
  | fill hd hreserved => exact h.fill hd hreserved
  | refer hname taken => exact h.refer hname taken

theorem Traced.steps (h : Traced env p) (hsteps : ReflTransGen (Step env) p p') :
    Traced env p' := by
  induction hsteps with
  | refl => exact h
  | tail _ hstep ih => exact ih.step hstep

/-! ## Definitions stored after success -/

/-- Every name that was reserved on the way has the definition of its type. -/
structure Settles (p p' : Progress) : Prop where
  history_subset : p.history ⊆ p'.history
  filled : ∀ name type ctx, .reserved name type ctx ∈ p'.history →
    .reserved name type ctx ∈ p.history ∨ .filled name type ∈ p'.history

theorem Settles.of_quiet (quiet : Quiet p p') : Settles p p' := by
  constructor
  · rw [quiet.2]
    exact List.Subset.refl _
  · intro name type ctx hmem
    exact .inl (quiet.2 ▸ hmem)

theorem Settles.trans {p₁ : Progress} (h : Settles p p₁) (h' : Settles p₁ p') : Settles p p' := by
  refine ⟨List.Subset.trans h.history_subset h'.history_subset, fun name type ctx hmem => ?_⟩
  rcases h'.filled name type ctx hmem with hmem | hfilled
  · exact (h.filled name type ctx hmem).imp_right fun hfilled => h'.history_subset hfilled
  · exact .inr hfilled

theorem Describes.settles {describe : Describe} {made : List Described}
    (hdescribe : ∀ {type ctx d p p'}, (describe type ctx).on p = (.ok d, p') → Settles p p')
    (h : Describes describe p made p') : Settles p p' :=
  h.relates .of_quiet .trans hdescribe

theorem TypeDescribed.settles {describe : Describe} {d : Definition}
    (hdescribe : ∀ {type ctx d p p'}, (describe type ctx).on p = (.ok d, p') → Settles p p')
    (h : TypeDescribed env describe type ctx p d p') : Settles p p' := by
  cases h with
  | inlined _ _ _ hmade => exact hmade.settles hdescribe
  | known => exact ⟨List.subset_cons_self _ _, fun _ _ _ hmem => .inl (by simpa using hmem)⟩
  | new _ _ _ _ hmade =>
      obtain ⟨hsubset, hfilled⟩ := hmade.settles hdescribe
      constructor
      · intro event hmem
        have hmade := hsubset (List.mem_cons_of_mem _ hmem)
        simp [hmade]
      · intro other type' ctx' hmem
        simp only [Progress.history_refer, Progress.history_fill, Progress.history_reserve,
          List.mem_cons, reduceCtorEq, false_or] at hmem hfilled ⊢
        rcases hfilled other type' ctx' hmem with (heq | hold) | hnew
        · cases heq
          exact .inr (.inl rfl)
        · exact .inl hold
        · exact .inr (.inr hnew)

theorem typeDefinition_settles {depth : Nat} {d : Definition}
    (h : (typeDefinition env depth type ctx).on p = (.ok d, p')) : Settles p p' :=
  typeDefinition_induction (R := fun _ _ p _ p' => Settles p p')
    (fun ih _ _ _ _ _ hrun => hrun.described.settles ih) h

/-! ## Sequences of descriptions -/

variable {calls : List (TypeId × Context)} {outcomes : List (Except Failure Definition)}

theorem defineAll_steps (h : defineAll env calls p = (outcomes, p')) :
    ReflTransGen (Step env) p p' := by
  induction calls generalizing p outcomes with
  | nil =>
      cases h
      exact .refl
  | cons call rest ih =>
      rw [defineAll_cons, Prod.mk.injEq] at h
      obtain ⟨-, rfl⟩ := h
      exact (typeDefinition_moves maxDepth call.1 call.2 p).trans (ih rfl)

/-- What every successful description does to the progress, a sequence of them does. -/
theorem defineAll_induction {R : Progress → Progress → Prop} (hrefl : ∀ p, R p p)
    (htrans : ∀ {p p₁ p'}, R p p₁ → R p₁ p' → R p p')
    (hdefine : ∀ {type ctx d p p'}, (define env type ctx).on p = (.ok d, p') → R p p')
    (h : defineAll env calls p = (outcomes, p'))
    (hok : ∀ outcome ∈ outcomes, outcome.isOk = true) : R p p' := by
  induction calls generalizing p outcomes with
  | nil =>
      cases h
      exact hrefl _
  | cons call rest ih =>
      rw [defineAll_cons, Prod.mk.injEq] at h
      obtain ⟨rfl, rfl⟩ := h
      obtain ⟨hfirst, hothers⟩ := List.forall_mem_cons.1 hok
      have hrest := ih rfl hothers
      cases hcall : (define env call.1 call.2).on p with
      | mk outcome p₁ =>
          rw [hcall] at hfirst hrest
          cases outcome with
          | error failure => cases hfirst
          | ok d => exact htrans (hdefine hcall) hrest

theorem defineAll_settles (h : defineAll env calls p = (outcomes, p'))
    (hok : ∀ outcome ∈ outcomes, outcome.isOk = true) : Settles p p' :=
  defineAll_induction (fun _ => .of_quiet (.refl _)) .trans typeDefinition_settles h hok

/-! ## Names of types and of aliases -/

/-- The type is referred to by the name of an alias that was written for it. -/
def NamedByAlias (env : Environment) (type : TypeId) (ctx : Context) (name : String) : Prop :=
  ∃ node id symbol, env.graph.typeNode type = .ok node ∧ usesAlias env node ctx = true ∧
    ctx.reffed = some id ∧ env.graph.symbol id = .ok symbol ∧
    name = QualifiedName.stripModulePath symbol.qualifiedName

/-- The type is referred to by its own name, since it has one and is not anonymous. -/
def NamedByOwn (env : Environment) (type : TypeId) (name : String) : Prop :=
  ∃ node symbol, env.graph.typeNode type = .ok node ∧
    Shape.symbolOf env.graph node.symbol = .ok symbol ∧ isRaw symbol = false ∧
    isAnonymous node = false ∧ name = QualifiedName.stripModulePath node.name

theorem namedByAlias_or_byOwn (h : referenceOf env type ctx = .ok (some name)) :
    NamedByAlias env type ctx name ∨ NamedByOwn env type name := by
  simp only [referenceOf, outcome_bind_eq_ok] at h
  obtain ⟨node, hnode, symbol, hsymbol, hname⟩ := h
  unfold referenceName at hname
  split at hname
  · rename_i halias
    split at hname
    · rename_i id hreffed
      obtain ⟨written, hid, hpure⟩ := outcome_bind_eq_ok.1 hname
      cases hpure
      exact .inl ⟨node, id, written, hnode, halias, hreffed, hid, rfl⟩
    · cases hname
  · split at hname
    · rename_i hnamed
      cases hname
      simp only [Bool.and_eq_true, Bool.not_eq_true', Bool.or_eq_false_iff] at hnamed
      exact .inr ⟨node, symbol, hnode, hsymbol, hnamed.2.1, hnamed.2.2, rfl⟩
    · cases hname

theorem namedByAlias_or_own (h : referenceOf env type ctx = .ok (some name)) :
    NamedByAlias env type ctx name ∨ ∃ node, env.graph.typeNode type = .ok node ∧
      node.symbol ≠ none ∧ name = QualifiedName.stripModulePath node.name := by
  refine (namedByAlias_or_byOwn h).imp_right fun hown => ?_
  obtain ⟨node, symbol, hnode, hsymbol, hraw, -, hname⟩ := hown
  refine ⟨node, hnode, fun hnone => ?_, hname⟩
  rw [hnone] at hsymbol
  cases hsymbol
  cases hraw

/-- Whatever is described in whatever order: the definition under a name that a type refers to comes
from one type, which is the type itself unless the name is that of an alias. -/
theorem referred_origin (hnames : DistinctNames env.graph)
    (hall : defineAll env calls .initial = (outcomes, p))
    (h : .referred name type ctx ∈ p.history) :
    ∃ origin ctx', referenceOf env origin ctx' = .ok (some name) ∧
      (∀ d, p.registry.find? name = some d →
        d = Dict.empty ∨ RenderedFrom env name origin ctx' d) ∧
      ((∀ outcome ∈ outcomes, outcome.isOk = true) →
        ∃ d, p.registry.find? name = some d ∧ RenderedFrom env name origin ctx' d) ∧
      (∀ other, .filled name other ∈ p.history → other = origin) ∧
      (origin = type ∨ NamedByAlias env type ctx name ∨ NamedByAlias env origin ctx' name) := by
  have htraced := traced_initial.steps (defineAll_steps hall)
  obtain ⟨href, hkeys⟩ := htraced.referred name type ctx h
  obtain ⟨d, hd⟩ := Dict.mem_keys_iff.1 hkeys
  obtain ⟨origin, ctx', hreserved, hstored⟩ := htraced.stored name d hd
  have horigin := htraced.reserved name origin ctx' hreserved
  refine ⟨origin, ctx', horigin, fun d' hd' => ?_, fun hok => ⟨d, hd, ?_⟩, fun other hother => ?_,
    ?_⟩
  · rw [hd] at hd'
    cases hd'
    exact hstored.symm.imp_left And.left
  · rcases (defineAll_settles hall hok).filled name origin ctx' hreserved with hnone | hfilled
    · exact absurd hnone List.not_mem_nil
    · exact hstored.resolve_right fun hempty => hempty.2 origin hfilled
  · obtain ⟨ctx₁, hother⟩ := htraced.filled name other hother
    exact (htraced.once name other ctx₁ origin ctx' hother hreserved).1
  · rcases namedByAlias_or_own href with halias | ⟨node, hnode, -, hown⟩
    · exact .inr (.inl halias)
    · rcases namedByAlias_or_own horigin with halias | ⟨node', hnode', -, hown'⟩
      · exact .inr (.inr halias)
      · exact .inl (hnames.eq hnode' hnode (hown'.symm.trans hown))

/-! ## A generic alias -/

/-- An alias `Maybe` that stands for two types. -/
def maybeGraph : Graph where
  modules := []
  declarations := .ofEntries [
    (⟨"a"⟩, { Declaration.blank with kind := .property, typeReference := some ⟨"Maybe"⟩ }),
    (⟨"b"⟩, { Declaration.blank with kind := .property, typeReference := some ⟨"Maybe"⟩ })]
  symbols := .ofEntries [
    (⟨"Maybe"⟩, { Symbol.blank with name := "Maybe", qualifiedName := "Maybe" }),
    (⟨"a"⟩, { Symbol.blank with
      name := "a", type := some ⟨"string | null"⟩, declarations := [⟨"a"⟩] }),
    (⟨"b"⟩, { Symbol.blank with
      name := "b", type := some ⟨"number | null"⟩, declarations := [⟨"b"⟩] })]
  types := .ofEntries [
    (⟨"string"⟩, ⟨"string", none, .string⟩),
    (⟨"number"⟩, ⟨"number", none, .number⟩),
    (⟨"null"⟩, ⟨"null", none, .null⟩),
    (⟨"string | null"⟩, ⟨"string | null", none, .union [⟨"string"⟩, ⟨"null"⟩]⟩),
    (⟨"number | null"⟩, ⟨"number | null", none, .union [⟨"number"⟩, ⟨"null"⟩]⟩),
    (⟨"Holder"⟩, ⟨"Holder", none, .object { ObjectType.blank with properties := [⟨"a"⟩, ⟨"b"⟩] }⟩)]
  diagnostics := []
  strictNullChecks := false

def maybeEnvironment : Environment :=
  ⟨maybeGraph, { Settings.default with useTypeAliasRef := true }, .empty⟩

def maybeCalls : List (TypeId × Context) := [(⟨"Holder"⟩, Context.standing false)]

def maybePlace (property : SymbolId) : Context := ⟨true, .oneOf, some property, some ⟨"Maybe"⟩⟩

theorem referred_origin_maybe :
    ∃ origin ctx', referenceOf maybeEnvironment origin ctx' = .ok (some "Maybe") ∧
      (∀ d, (defineAll maybeEnvironment maybeCalls .initial).2.registry.find? "Maybe" = some d →
        d = Dict.empty ∨ RenderedFrom maybeEnvironment "Maybe" origin ctx' d) ∧
      ((∀ outcome ∈ (defineAll maybeEnvironment maybeCalls .initial).1, outcome.isOk = true) →
        ∃ d, (defineAll maybeEnvironment maybeCalls .initial).2.registry.find? "Maybe" = some d ∧
          RenderedFrom maybeEnvironment "Maybe" origin ctx' d) ∧
      (∀ other, .filled "Maybe" other ∈ (defineAll maybeEnvironment maybeCalls .initial).2.history →
        other = origin) ∧
      (origin = ⟨"number | null"⟩ ∨
        NamedByAlias maybeEnvironment ⟨"number | null"⟩ (maybePlace ⟨"b"⟩) "Maybe" ∨
        NamedByAlias maybeEnvironment origin ctx' "Maybe") :=
  referred_origin (by decide +kernel) rfl (by decide +kernel)

/-- Two types share the definition under the name of a generic alias. -/
theorem generic_alias_shares_definition :
    ¬ ∀ (env : Environment) (calls : List (TypeId × Context)) (name : String) (type : TypeId)
        (ctx : Context), DistinctNames env.graph →
      .referred name type ctx ∈ (defineAll env calls .initial).2.history →
        .filled name type ∈ (defineAll env calls .initial).2.history ∧
        ∀ origin, .filled name origin ∈ (defineAll env calls .initial).2.history →
          origin = type := by
  intro h
  have hshared := h maybeEnvironment maybeCalls "Maybe"
    ⟨"number | null"⟩ (maybePlace ⟨"b"⟩) (by decide +kernel) (by decide +kernel)
  have hsame := hshared.2 ⟨"string | null"⟩ (by decide +kernel)
  exact absurd hsame (by decide)

end TypeSchema.Schema
