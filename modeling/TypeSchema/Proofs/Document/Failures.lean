import TypeSchema.Document
import TypeSchema.Proofs.SymbolTable.Complete

/-!
# Failures of closed graphs

A generation from a closed graph without cyclic nesting finds all that it looks up, except for a
target that the graph does not name.
-/

namespace TypeSchema

/-- Something that is mentioned in the graph is not part of it. -/
def Failure.isDangling : Failure → Bool
  | .danglingType _ => true
  | .danglingSymbol _ => true
  | .danglingDeclaration _ => true
  | _ => false

/-- Something was looked up and not found. -/
def Failure.IsUnfound (failure : Failure) : Prop :=
  failure.isDangling = true ∨ ∃ name, failure = .unknownType name

namespace Document

open Schema

variable {g : Graph} {settings : Settings} {table : SymbolTable} {target : String}

/-! ## Descriptions -/

theorem named_of_subtypes (h : (SymbolTable.collect g).1 = .ok table) {node : TypeNode}
    {names : List String} (hnames : subtypes (environment g settings table) node = .ok names) :
    ∀ name ∈ names, name ∈ table.all.keys := by
  unfold subtypes at hnames
  dsimp only at hnames
  split at hnames
  · rename_i found hfind
    cases hnames
    have hheirs : table.heirs (QualifiedName.stripModulePath node.name) = names :=
      congrArg (Option.getD · []) hfind
    exact fun name hname => SymbolTable.heirs_named h (hheirs ▸ hname)
  · cases hnames

theorem readable_environment (hclosed : g.Closed) (h : (SymbolTable.collect g).1 = .ok table) :
    Readable (environment g settings table) Failure.IsUnfound where
  toReadable := hclosed.readable _
  keys _ _ := by simp [Failure.IsUnfound, Failure.isDangling]
  arities _ _ := by simp [Failure.IsUnfound, Failure.isDangling]
  subtypes _ := by simp [Failure.IsUnfound, Failure.isDangling]
  heirs hnames hname hnone :=
    absurd (named_of_subtypes h hnames _ hname) (Entries.find?_eq_none_iff.1 hnone)

section

variable (hclosed : g.Closed) (h : (SymbolTable.collect g).1 = .ok table)

include hclosed h

theorem define_avoids {type : TypeId} (htype : type ∈ g.mentionedTypes) (asRef : Bool) :
    Run.Avoids (fun _ => True) Failure.IsUnfound
      (define (environment g settings table) type (Context.standing asRef)) := by
  have hread : Readable (environment g settings table) Failure.IsUnfound :=
    readable_environment hclosed h
  refine typeDefinition_avoids hread (fun name type hfind => ?_) (fun _ => ?_) maxDepth
    (readableAt_of_none (hread.types type htype) rfl rfl)
  · exact SymbolTable.mentioned_of_collected h hfind
  · simp [Failure.IsUnfound, Failure.isDangling]

theorem forAllTypes_avoids :
    Run.Avoids (fun _ => True) Failure.IsUnfound
      (forAllTypes (environment g settings table)) := by
  refine Run.Avoids.bind (.forEach fun entry hentry => ?_) fun definitions =>
    fun _ _ => ⟨trivial, .ok _⟩
  refine (define_avoids hclosed h ?_ false).bind fun _ => .pure _
  exact SymbolTable.user_mentioned_of_collected h (Dict.mem_entries_iff.1 hentry)

theorem forType_avoids (htarget : target ∈ table.all.keys) :
    Run.Avoids (fun _ => True) Failure.IsUnfound
      (forType (environment g settings table) target) := by
  obtain ⟨type, hfind⟩ : ∃ type,
      (environment g settings table).table.all.find? target = some type :=
    Dict.mem_keys_iff.1 htarget
  rw [forType, hfind]
  exact (define_avoids hclosed h (SymbolTable.mentioned_of_collected h hfind) _).bind
    fun _ => fun _ _ => ⟨trivial, .ok _⟩

theorem forTarget_avoids (htarget : target = allTypes ∨ target ∈ table.all.keys) :
    Run.Avoids (fun _ => True) Failure.IsUnfound
      (forTarget (environment g settings table) target) := by
  unfold forTarget
  split
  · exact forAllTypes_avoids hclosed h
  · rename_i hone
    exact forType_avoids hclosed h (htarget.resolve_left hone)

end

/-! ## Generations -/

/-- What stops a generation that no diagnostic stops, once there is a table. -/
theorem generate_error_iff (hrun : g.diagnostics = [] ∨ settings.ignoreErrors = true)
    (htable : (SymbolTable.collect g).1 = .ok table) {failure : Failure} :
    (generate g target settings).1 = .error failure ↔
      ((forTarget (environment g settings table) target).on .initial).1 = .error failure := by
  have hgo : (!g.diagnostics.isEmpty && !settings.ignoreErrors) = false := by
    rcases hrun with hnone | hignore
    · rw [hnone]
      rfl
    · rw [hignore, Bool.not_true, Bool.and_false]
  unfold generate
  dsimp only
  rw [hgo, if_neg Bool.false_ne_true]
  generalize SymbolTable.collect g = collected at htable
  obtain ⟨result, notices⟩ := collected
  cases htable
  dsimp only [outcome]
  generalize (forTarget (environment g settings table) target).on .initial = final
  obtain ⟨described, p⟩ := final
  cases described <;> simp [Except.map]

theorem forTarget_unnamed (hall : target ≠ allTypes) (htarget : target ∉ table.all.keys) :
    ((forTarget (environment g settings table) target).on .initial).1 =
      .error (.unknownType target) := by
  have hnone : (environment g settings table).table.all.find? target = none :=
    Entries.find?_eq_none_iff.2 htarget
  rw [forTarget, if_neg hall, forType, hnone]
  rfl

/-- From a closed graph without cyclic nesting a generation finds everything but a target that has
no name in the graph; the types that extend an abstract one all have names. -/
theorem generate_closed (hclosed : g.Closed) (hacyclic : g.Acyclic) (target : String)
    (settings : Settings) :
    (∀ failure, (generate g target settings).1 = .error failure → failure.isDangling = false) ∧
      (g.diagnostics = [] ∨ settings.ignoreErrors = true →
        ∃ table, (SymbolTable.collect g).1 = .ok table ∧
          (∀ name, (generate g target settings).1 = .error (.unknownType name) ↔
            name = target ∧ target ≠ allTypes ∧ target ∉ table.all.keys) ∧
          ∀ node names, subtypes (environment g settings table) node = .ok names →
            ∀ name ∈ names, name ∈ table.all.keys) := by
  obtain ⟨table, htable⟩ := SymbolTable.collect_succeeds hclosed hacyclic
  have hnamed (failure : Failure) (htarget : target = allTypes ∨ target ∈ table.all.keys)
      (hrun : g.diagnostics = [] ∨ settings.ignoreErrors = true)
      (herror : (generate g target settings).1 = .error failure) : ¬ failure.IsUnfound := by
    rw [generate_error_iff hrun htable] at herror
    exact (forTarget_avoids hclosed htable htarget .initial trivial).2 failure herror
  have hunnamed (hall : target ≠ allTypes) (htarget : target ∉ table.all.keys)
      (hrun : g.diagnostics = [] ∨ settings.ignoreErrors = true) :
      (generate g target settings).1 = .error (.unknownType target) :=
    (generate_error_iff hrun htable).2 (forTarget_unnamed hall htarget)
  have hknown : (target = allTypes ∨ target ∈ table.all.keys) ∨
      target ≠ allTypes ∧ target ∉ table.all.keys := by
    rw [← not_or]
    exact Decidable.em _
  constructor
  · intro failure herror
    by_cases hrun : g.diagnostics = [] ∨ settings.ignoreErrors = true
    · rcases hknown with hknown | ⟨hall, htarget⟩
      · exact Bool.eq_false_iff.2 fun hdangling =>
          hnamed failure hknown hrun herror (.inl hdangling)
      · rw [hunnamed hall htarget hrun] at herror
        cases herror
        rfl
    · obtain ⟨hdiagnostics, hignore⟩ := not_or.1 hrun
      simp [generate, hdiagnostics, hignore] at herror
  · intro hrun
    refine ⟨table, htable, fun name => ⟨fun herror => ?_, ?_⟩, fun node names hnames =>
      named_of_subtypes htable hnames⟩
    · rcases hknown with hknown | ⟨hall, htarget⟩
      · exact absurd (.inr ⟨name, rfl⟩) (hnamed _ hknown hrun herror)
      · rw [hunnamed hall htarget hrun] at herror
        cases herror
        exact ⟨rfl, hall, htarget⟩
    · rintro ⟨rfl, hall, htarget⟩
      exact hunnamed hall htarget hrun

/-- A module of figures: an abstract `Shape`, and a `Circle` that extends it. -/
def figureGraph : Graph where
  modules := [⟨"figures.ts", false, [⟨"figures"⟩]⟩]
  declarations := .ofEntries [
    (⟨"figures"⟩, { Declaration.blank with kind := .module, children := [⟨"Shape"⟩, ⟨"Circle"⟩] }),
    (⟨"Shape"⟩, { Declaration.blank with
      kind := .classType, symbol := some ⟨"Shape"⟩, isAbstract := true }),
    (⟨"Circle"⟩, { Declaration.blank with
      kind := .classType, symbol := some ⟨"Circle"⟩, members := [.property ⟨"radius"⟩] })]
  symbols := .ofEntries [
    (⟨"Shape"⟩, { Symbol.blank with
      name := "Shape", qualifiedName := "figures.Shape", type := some ⟨"Shape"⟩,
      declarations := [⟨"Shape"⟩] }),
    (⟨"Circle"⟩, { Symbol.blank with
      name := "Circle", qualifiedName := "figures.Circle", type := some ⟨"Circle"⟩,
      declarations := [⟨"Circle"⟩] }),
    (⟨"radius"⟩, { Symbol.blank with name := "radius", type := some ⟨"number"⟩ })]
  types := .ofEntries [
    (⟨"number"⟩, ⟨"number", none, .number⟩),
    (⟨"Shape"⟩, ⟨"figures.Shape", some ⟨"Shape"⟩, .object .blank⟩),
    (⟨"Circle"⟩, ⟨"figures.Circle", some ⟨"Circle"⟩,
      .object { ObjectType.blank with baseTypes := [⟨"Shape"⟩], properties := [⟨"radius"⟩] }⟩)]
  diagnostics := []
  strictNullChecks := false

def figureRank (id : DeclarationId) : Nat := if id = ⟨"figures"⟩ then 1 else 0

theorem generate_closed_figures :
    figureGraph.Closed ∧ figureGraph.Acyclic ∧
      (∀ failure, (generate figureGraph "Square" .default).1 = .error failure →
        failure.isDangling = false) ∧
      ∃ table, (SymbolTable.collect figureGraph).1 = .ok table ∧
        (∀ name, (generate figureGraph "Square" .default).1 = .error (.unknownType name) ↔
          name = "Square" ∧ "Square" ≠ allTypes ∧ "Square" ∉ table.all.keys) ∧
        ∀ node names, subtypes (environment figureGraph .default table) node = .ok names →
          ∀ name ∈ names, name ∈ table.all.keys := by
  have hclosed : figureGraph.Closed :=
    ⟨by decide +kernel, by decide +kernel, by decide +kernel⟩
  have hrank : ∀ entry ∈ figureGraph.declarations.entries, ∀ child ∈ entry.2.children,
      figureRank child < figureRank entry.1 := by decide +kernel
  have hacyclic : figureGraph.Acyclic := Graph.acyclic_of_rank hrank
  obtain ⟨hdangling, hunknown⟩ := generate_closed hclosed hacyclic "Square" .default
  exact ⟨hclosed, hacyclic, hdangling, hunknown (.inl rfl)⟩

end Document

end TypeSchema
