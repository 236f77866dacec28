import TypeSchema.Loading
import TypeSchema.Run

/-!
# Merged graphs

Where an id has an entry in several graphs the last of them wins, and the id stands where it first
came.  This determines what graphs merge to, so it does not matter in which groups they are merged
as long as their order stays: files loaded apart and merged give what they give when loaded at once.
-/

namespace TypeSchema

/-! ## Dictionaries -/

namespace Dict

variable {κ α : Type} [DecidableEq κ] {d later whole whole' : Dict κ α}

/-- Entries of the later dictionary win; keys that only it has stand behind all others. -/
structure LastWins (d later whole : Dict κ α) : Prop where
  found : ∀ key, whole.find? key = (later.find? key).or (d.find? key)
  keys : whole.keys = d.keys ++ later.keys.filter (· ∉ d.keys)

theorem lastWins_merge (d later : Dict κ α) : LastWins d later (d.merge later) :=
  ⟨find?_merge d later, keys_merge d later⟩

theorem LastWins.unique (h : LastWins d later whole) (h' : LastWins d later whole') :
    whole = whole' := by
  apply eq_of_find?
  · rw [h.keys, h'.keys]
  · intro key
    rw [h.found, h'.found]

theorem merge_assoc (d later last : Dict κ α) :
    (d.merge later).merge last = d.merge (later.merge last) := by
  apply eq_of_find?
  · -- a key of the last one is new to both if it is new to the first and to the second
    have hnew : last.keys.filter (· ∉ d.keys ++ later.keys.filter (· ∉ d.keys)) =
        (last.keys.filter (· ∉ later.keys)).filter (· ∉ d.keys) := by
      rw [List.filter_filter]
      apply List.filter_congr
      intro key _
      by_cases hkey : key ∈ d.keys <;> simp [hkey]
    simp only [keys_merge, hnew, List.filter_append, List.append_assoc]
  · intro key
    simp only [find?_merge, Option.or_assoc]

example : ((ofEntries [(1, 'a'), (2, 'b')]).merge (ofEntries [(3, 'c'), (1, 'd')])).entries =
    [(1, 'd'), (2, 'b'), (3, 'c')] := by decide

end Dict

/-! ## Graphs -/

namespace Graph

variable {g later whole whole' : Graph}

/-- What two graphs merge to: modules and diagnostics stand one behind the other, entries of the
later graph win, and null checks are strict if they are in one of the graphs. -/
structure MergesTo (g later whole : Graph) : Prop where
  modules : whole.modules = g.modules ++ later.modules
  declarations : Dict.LastWins g.declarations later.declarations whole.declarations
  symbols : Dict.LastWins g.symbols later.symbols whole.symbols
  types : Dict.LastWins g.types later.types whole.types
  diagnostics : whole.diagnostics = g.diagnostics ++ later.diagnostics
  strictNullChecks : whole.strictNullChecks = (g.strictNullChecks || later.strictNullChecks)

theorem mergesTo_merge (g later : Graph) : MergesTo g later (g.merge later) where
  modules := rfl
  declarations := Dict.lastWins_merge g.declarations later.declarations
  symbols := Dict.lastWins_merge g.symbols later.symbols
  types := Dict.lastWins_merge g.types later.types
  diagnostics := rfl
  strictNullChecks := rfl

theorem MergesTo.unique (h : MergesTo g later whole) (h' : MergesTo g later whole') :
    whole = whole' := by
  have hdeclarations := h.declarations.unique h'.declarations
  have hsymbols := h.symbols.unique h'.symbols
  have htypes := h.types.unique h'.types
  obtain ⟨hmodules, -, -, -, hdiagnostics, hchecks⟩ := h
  obtain ⟨hmodules', -, -, -, hdiagnostics', hchecks'⟩ := h'
  cases whole
  cases whole'
  simp_all

theorem merge_eq_iff : g.merge later = whole ↔ MergesTo g later whole := by
  constructor
  · rintro rfl
    exact mergesTo_merge g later
  · intro h
    exact (mergesTo_merge g later).unique h

theorem merge_assoc (g later last : Graph) :
    (g.merge later).merge last = g.merge (later.merge last) := by
  simp [merge, Dict.merge_assoc, Bool.or_assoc]

@[simp] theorem empty_merge (g : Graph) : (∅ : Graph).merge g = g := by
  change Graph.mk ([] ++ g.modules) (Dict.empty.merge g.declarations)
    (Dict.empty.merge g.symbols) (Dict.empty.merge g.types) ([] ++ g.diagnostics)
    (false || g.strictNullChecks) = g
  simp

@[simp] theorem merge_empty (g : Graph) : g.merge ∅ = g := by
  change Graph.mk (g.modules ++ []) g.declarations g.symbols g.types (g.diagnostics ++ [])
    (g.strictNullChecks || false) = g
  simp

/-- Merging is associative, the empty graph makes no difference on either side, and what graphs
merge to is the one graph in which the later of them wins and ids stand where they first came. -/
theorem merge_last_wins (a b c : Graph) :
    (a.merge b).merge c = a.merge (b.merge c) ∧
      (∅ : Graph).merge a = a ∧ a.merge ∅ = a ∧
      ∀ whole, a.merge b = whole ↔ MergesTo a b whole :=
  ⟨merge_assoc a b c, empty_merge a, merge_empty a, fun _ => merge_eq_iff⟩

/-! ## Groups of graphs -/

theorem foldl_merge (g : Graph) (graphs : List Graph) :
    graphs.foldl merge g = g.merge (mergeAll graphs) := by
  induction graphs generalizing g with
  | nil => exact (merge_empty g).symm
  | cons first rest ih =>
    have hall : mergeAll (first :: rest) = first.merge (mergeAll rest) := by
      change rest.foldl merge ((∅ : Graph).merge first) = _
      rw [ih, empty_merge]
    rw [List.foldl_cons, ih, merge_assoc, hall]

theorem mergeAll_append (graphs later : List Graph) :
    mergeAll (graphs ++ later) = (mergeAll graphs).merge (mergeAll later) := by
  rw [mergeAll, List.foldl_append]
  exact foldl_merge _ later

theorem mergeAll_flatten (groups : List (List Graph)) :
    mergeAll groups.flatten = mergeAll (groups.map mergeAll) := by
  induction groups with
  | nil => rfl
  | cons group rest ih =>
    rw [List.flatten_cons, mergeAll_append, ih, List.map_cons]
    change _ = (rest.map mergeAll).foldl merge ((∅ : Graph).merge (mergeAll group))
    rw [foldl_merge, empty_merge]

end Graph

namespace Loading

variable {files : Files} {inputs others : List String}

theorem paths_append {found found' : List String} (h : paths files inputs = .ok found)
    (h' : paths files others = .ok found') :
    paths files (inputs ++ others) = .ok (found ++ found') := by
  unfold paths at h h' ⊢
  obtain ⟨lists, hlists, hfound⟩ := outcome_bind_eq_ok.1 h
  obtain ⟨lists', hlists', hfound'⟩ := outcome_bind_eq_ok.1 h'
  cases hfound
  cases hfound'
  rw [List.mapM_append, hlists, hlists']
  simp [bind, Except.bind, pure, Except.pure]

/-- Inputs that load apart load together, and give the graphs of both merged. -/
theorem graphOf_append {g later : Graph} (h : graphOf files inputs = .ok g)
    (h' : graphOf files others = .ok later) :
    graphOf files (inputs ++ others) = .ok (g.merge later) := by
  unfold graphOf at h h' ⊢
  obtain ⟨found, hfound, h⟩ := outcome_bind_eq_ok.1 h
  obtain ⟨found', hfound', h'⟩ := outcome_bind_eq_ok.1 h'
  obtain ⟨graphs, hgraphs, hg⟩ := outcome_bind_eq_ok.1 h
  obtain ⟨graphs', hgraphs', hlater⟩ := outcome_bind_eq_ok.1 h'
  cases hg
  cases hlater
  rw [paths_append hfound hfound', ← Graph.mergeAll_append]
  simp [bind, Except.bind, pure, Except.pure, List.mapM_append, hgraphs, hgraphs']

end Loading

end TypeSchema
