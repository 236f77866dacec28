import TypeSchema.Graph.Basic

/-!
# Chains of aliases

An alias names the symbol that it stands for, which may be an alias in turn, so that aliases make
chains.  A chain ends at a symbol that is no alias or at an id without a symbol, but it may also
lead around in a circle and never end.  Resolving an alias goes along the chain for 65 hops at most:
what comes later, be it the end of the chain or a missing symbol, makes no difference.
-/

namespace TypeSchema.Graph

/-! ## Chains -/

def AliasOf (g : Graph) (id target : SymbolId) : Prop :=
  ∃ s, g.symbols.find? id = some s ∧ s.aliasTarget = some target

/-- There is a symbol with this id, and it is no alias. -/
def EndsChain (g : Graph) (id : SymbolId) : Prop :=
  ∃ s, g.symbols.find? id = some s ∧ s.aliasTarget = none

/-- So many hops along the chain lead from the first id to the second. -/
inductive Hops (g : Graph) : Nat → SymbolId → SymbolId → Prop where
  | stay (id) : Hops g 0 id id
  | hop {n id next final} (first : g.AliasOf id next) (rest : Hops g n next final) :
      Hops g (n + 1) id final

variable {g g' : Graph} {id next final : SymbolId} {n m : Nat} {failure : Failure}

theorem chain_cases (g : Graph) (id : SymbolId) :
    id ∉ g.symbols.keys ∨ g.EndsChain id ∨ ∃ next, g.AliasOf id next := by
  cases hs : g.symbols.find? id with
  | none => exact .inl (Entries.find?_eq_none_iff.1 hs)
  | some s =>
      cases htarget : s.aliasTarget with
      | none => exact .inr (.inl ⟨s, hs, htarget⟩)
      | some next => exact .inr (.inr ⟨next, s, hs, htarget⟩)

theorem AliasOf.unique {next' : SymbolId} (h : g.AliasOf id next) (h' : g.AliasOf id next') :
    next = next' := by
  obtain ⟨s, hs, htarget⟩ := h
  obtain ⟨s', hs', htarget'⟩ := h'
  simp_all

theorem AliasOf.not_endsChain (h : g.AliasOf id next) : ¬ g.EndsChain id := by
  rintro ⟨s', hs', htarget'⟩
  obtain ⟨s, hs, htarget⟩ := h
  simp_all

theorem AliasOf.mem_keys (h : g.AliasOf id next) : id ∈ g.symbols.keys := by
  obtain ⟨s, hs, -⟩ := h
  exact Dict.mem_keys_iff.2 ⟨s, hs⟩

theorem EndsChain.mem_keys (h : g.EndsChain id) : id ∈ g.symbols.keys := by
  obtain ⟨s, hs, -⟩ := h
  exact Dict.mem_keys_iff.2 ⟨s, hs⟩

@[simp] theorem hops_zero : g.Hops 0 id final ↔ id = final := by
  constructor
  · rintro ⟨⟩
    rfl
  · rintro rfl
    exact .stay id

theorem hops_succ : g.Hops (n + 1) id final ↔ ∃ next, g.AliasOf id next ∧ g.Hops n next final := by
  constructor
  · rintro (_ | ⟨first, rest⟩)
    exact ⟨_, first, rest⟩
  · rintro ⟨next, first, rest⟩
    exact .hop first rest

/-- What holds of an id that the chain comes to holds of the first one, or is come to from its
target. -/
theorem exists_hops_iff {P : SymbolId → Prop} :
    (∃ m < n + 1, ∃ passed, g.Hops m id passed ∧ P passed) ↔
      P id ∨ ∃ next, g.AliasOf id next ∧ ∃ m < n, ∃ passed, g.Hops m next passed ∧ P passed := by
  constructor
  · rintro ⟨m, hm, passed, hhops, hpassed⟩
    cases hhops with
    | stay => exact .inl hpassed
    | hop first rest => exact .inr ⟨_, first, _, by omega, _, rest, hpassed⟩
  · rintro (hid | ⟨next, first, m, hm, passed, rest, hpassed⟩)
    · exact ⟨0, by omega, id, .stay id, hid⟩
    · exact ⟨m + 1, by omega, passed, .hop first rest, hpassed⟩

theorem AliasOf.exists_iff {P : SymbolId → Prop} (h : g.AliasOf id next) :
    (∃ next, g.AliasOf id next ∧ P next) ↔ P next := by
  constructor
  · rintro ⟨next', h', hnext'⟩
    rwa [h.unique h']
  · intro hnext
    exact ⟨next, h, hnext⟩

/-! ## Following a chain -/

theorem followAlias_missing (h : id ∉ g.symbols.keys) :
    g.followAlias (n + 1) id = .error (.danglingSymbol id.text) := by
  have hfind : g.symbols.find? id = none := Entries.find?_eq_none_iff.2 h
  simp [followAlias, symbol, hfind, bind, Except.bind]

theorem followAlias_end (h : g.EndsChain id) : g.followAlias (n + 1) id = .ok id := by
  obtain ⟨s, hs, htarget⟩ := h
  simp [followAlias, symbol, hs, htarget, bind, Except.bind, pure, Except.pure]

theorem followAlias_hop (h : g.AliasOf id next) :
    g.followAlias (n + 1) id = g.followAlias n next := by
  obtain ⟨s, hs, htarget⟩ := h
  simp [followAlias, symbol, hs, htarget, bind, Except.bind]

theorem followAlias_eq_ok_iff :
    g.followAlias n id = .ok final ↔
      (∃ m < n, ∃ passed, g.Hops m id passed ∧ g.EndsChain passed ∧ passed = final) ∨
        g.Hops n id final := by
  induction n generalizing id with
  | zero => simp [followAlias]
  | succ n ih =>
      rw [exists_hops_iff, hops_succ]
      rcases chain_cases g id with hmissing | hend | ⟨next, hnext⟩
      · have hnoEnd : ¬ g.EndsChain id := fun h => hmissing h.mem_keys
        have hnoAlias : ∀ next, ¬ g.AliasOf id next := fun _ h => hmissing h.mem_keys
        simp [followAlias_missing hmissing, hnoEnd, hnoAlias]
      · have hnoAlias : ∀ next, ¬ g.AliasOf id next := fun _ h => h.not_endsChain hend
        simp [followAlias_end hend, hend, hnoAlias]
      · rw [followAlias_hop hnext, ih, hnext.exists_iff, hnext.exists_iff]
        simp [hnext.not_endsChain]

theorem followAlias_eq_error_iff :
    g.followAlias n id = .error failure ↔
      ∃ m < n, ∃ passed, g.Hops m id passed ∧
        passed ∉ g.symbols.keys ∧ failure = .danglingSymbol passed.text := by
  induction n generalizing id with
  | zero => simp [followAlias]
  | succ n ih =>
      rw [exists_hops_iff]
      rcases chain_cases g id with hmissing | hend | ⟨next, hnext⟩
      · have hnoAlias : ∀ next, ¬ g.AliasOf id next := fun _ h => hmissing h.mem_keys
        simp [followAlias_missing hmissing, hmissing, hnoAlias, eq_comm]
      · have hnoAlias : ∀ next, ¬ g.AliasOf id next := fun _ h => h.not_endsChain hend
        simp [followAlias_end hend, hend.mem_keys, hnoAlias]
      · rw [followAlias_hop hnext, ih, hnext.exists_iff]
        simp [hnext.mem_keys]

/-- Two graphs in which the same symbols stand along the chain agree on where it leads. -/
theorem followAlias_congr
    (h : ∀ m < n, ∀ passed, g.Hops m id passed →
      g'.symbols.find? passed = g.symbols.find? passed) :
    g'.followAlias n id = g.followAlias n id := by
  induction n generalizing id with
  | zero => rfl
  | succ n ih =>
      have hid : g'.symbol id = g.symbol id := by
        rw [symbol, symbol, h 0 (by omega) id (.stay id)]
      rw [followAlias, followAlias, hid]
      cases hs : g.symbol id with
      | error failure => rfl
      | ok s =>
          cases htarget : s.aliasTarget with
          | none => simp [bind, Except.bind, htarget]
          | some next =>
              have hnext : g.AliasOf id next :=
                ⟨s, Dict.mem_entries_iff.1 (mem_symbols hs), htarget⟩
              have hrest := ih fun m hm passed hhops =>
                h (m + 1) (by omega) passed (.hop hnext hhops)
              simpa [bind, Except.bind, htarget] using hrest

/-! ## Resolving -/

/-- A symbol that the chain ends at within 65 hops is what an alias resolves to, and where the
chain goes on it is the one 65 hops away.  Resolving fails just at the first missing symbol, if it
is among the first 65 ids of the chain.  No symbol behind these 65 is looked at. -/
theorem resolveAlias_follows (g : Graph) (id : SymbolId) :
    (∀ final, g.resolveAlias id = .ok final ↔
      (∃ n ≤ 65, g.Hops n id final ∧ g.EndsChain final) ∨ g.Hops 65 id final) ∧
    (∀ failure, g.resolveAlias id = .error failure ↔
      ∃ n < 65, ∃ missing, g.Hops n id missing ∧
        missing ∉ g.symbols.keys ∧ failure = .danglingSymbol missing.text) ∧
    ∀ g' : Graph, (∀ n < 65, ∀ passed, g.Hops n id passed →
      g'.symbols.find? passed = g.symbols.find? passed) →
        g'.resolveAlias id = g.resolveAlias id := by
  refine ⟨fun final => ?_, fun failure => followAlias_eq_error_iff, fun g' => followAlias_congr⟩
  rw [resolveAlias, maxAliasHops, followAlias_eq_ok_iff]
  constructor
  · rintro (⟨m, hm, _, hhops, hend, rfl⟩ | hhops)
    · exact .inl ⟨m, by omega, hhops, hend⟩
    · exact .inr hhops
  · rintro (⟨m, hm, hhops, hend⟩ | hhops)
    · obtain hm | rfl := Nat.lt_or_eq_of_le hm
      · exact .inl ⟨m, hm, final, hhops, hend, rfl⟩
      · exact .inr hhops
    · exact .inr hhops

/-- Names that stand for each other. -/
def twins : Graph :=
  { Graph.empty with
    symbols := .ofEntries [
      (⟨"left"⟩, { Symbol.blank with aliasTarget := some ⟨"right"⟩ }),
      (⟨"right"⟩, { Symbol.blank with aliasTarget := some ⟨"left"⟩ })] }

/-- The same names beside one that stands for nothing in the graph. -/
def twinsAndStranger : Graph :=
  twins.merge { Graph.empty with
    symbols := .ofEntries [(⟨"stranger"⟩, { Symbol.blank with aliasTarget := some ⟨"nobody"⟩ })] }

theorem twins_pass (h : twins.Hops n id final) (hid : id ∈ twins.symbols.keys) :
    final ∈ twins.symbols.keys := by
  have htargets : ∀ entry ∈ twins.symbols.entries, ∀ target ∈ entry.2.aliasTarget,
      target ∈ twins.symbols.keys := by decide
  induction n generalizing id with
  | zero => rwa [← hops_zero.1 h]
  | succ n ih =>
      obtain ⟨next, ⟨s, hs, htarget⟩, rest⟩ := hops_succ.1 h
      apply ih rest
      exact htargets (id, s) (Dict.mem_entries_iff.2 hs) next htarget

theorem twins_endless (id : SymbolId) : ¬ twins.EndsChain id := by
  have htargets : ∀ entry ∈ twins.symbols.entries, entry.2.aliasTarget ≠ none := by decide
  rintro ⟨s, hs, htarget⟩
  exact htargets (id, s) (Dict.mem_entries_iff.2 hs) htarget

/-- What else stands in the graph makes no difference to the twins, and 65 hops lead from one of
them to the other. -/
theorem resolveAlias_follows_twins :
    (∀ n < 65, ∀ passed, twins.Hops n ⟨"left"⟩ passed →
      twinsAndStranger.symbols.find? passed = twins.symbols.find? passed) ∧
    twinsAndStranger.resolveAlias ⟨"left"⟩ = twins.resolveAlias ⟨"left"⟩ ∧
    twins.Hops 65 ⟨"left"⟩ ⟨"right"⟩ := by
  have hagree : ∀ id ∈ twins.symbols.keys,
      twinsAndStranger.symbols.find? id = twins.symbols.find? id := by decide
  have hpassed : ∀ n < 65, ∀ passed, twins.Hops n ⟨"left"⟩ passed →
      twinsAndStranger.symbols.find? passed = twins.symbols.find? passed := by
    intro n _ passed hhops
    exact hagree passed (twins_pass hhops (by decide))
  obtain ⟨hok, -, hlocal⟩ := resolveAlias_follows twins ⟨"left"⟩
  refine ⟨hpassed, hlocal twinsAndStranger hpassed, ?_⟩
  have hright : twins.resolveAlias ⟨"left"⟩ = .ok ⟨"right"⟩ := rfl
  rcases (hok ⟨"right"⟩).1 hright with ⟨n, -, -, hend⟩ | hhops
  · exact absurd hend (twins_endless ⟨"right"⟩)
  · exact hhops

/-! ## Circles -/

theorem Hops.append {k : Nat} (h : g.Hops m id next) (h' : g.Hops k next final) :
    g.Hops (m + k) id final := by
  induction h with
  | stay => simpa using h'
  | @hop m _ _ _ first _ ih =>
      rw [Nat.add_right_comm]
      exact .hop first (ih h')

theorem Hops.split (h : g.Hops (m + n) id final) :
    ∃ passed, g.Hops m id passed ∧ g.Hops n passed final := by
  induction m generalizing id with
  | zero => exact ⟨id, .stay id, by simpa using h⟩
  | succ m ih =>
      rw [Nat.succ_add] at h
      obtain ⟨next, first, rest⟩ := hops_succ.1 h
      obtain ⟨passed, hpassed, hfinal⟩ := ih rest
      exact ⟨passed, .hop first hpassed, hfinal⟩

theorem Hops.around (h : g.Hops n id id) (times : Nat) : g.Hops (n * times) id id := by
  induction times with
  | zero => exact .stay id
  | succ times ih => exact ih.append h

/-- In a circle of aliases only the hops count that are left after going around it. -/
theorem resolveAlias_of_circle (hn : 0 < n) (h : g.Hops n id id) :
    ∃ final, g.Hops (65 % n) id final ∧ g.resolveAlias id = .ok final := by
  have hlt : 65 % n < n := Nat.mod_lt 65 hn
  have hparts : 65 % n + (n - 65 % n) = n := by omega
  rw [← hparts] at h
  obtain ⟨final, hfinal, -⟩ := h.split
  rw [hparts] at h
  refine ⟨final, hfinal, followAlias_eq_ok_iff.2 (.inr ?_)⟩
  have hhops := (h.around (65 / n)).append hfinal
  rwa [Nat.div_add_mod] at hhops

end TypeSchema.Graph
