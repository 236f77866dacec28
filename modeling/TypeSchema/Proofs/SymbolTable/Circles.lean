import TypeSchema.Loading
import TypeSchema.Proofs.SymbolTable.Complete

/-!
# Declarations that lead back to themselves

The children of a declaration are found by their ids, so nothing keeps a declaration from being
nested in itself.  The walk goes from a declaration into a child once it has passed the children
before it.  It settles, with a table or with the failure to look something up, unless this leads it
into a circle; there it would go on at every depth.
-/

namespace TypeSchema.SymbolTable

open Relation (ReflTransGen TransGen)

variable {g : Graph} {isLib : Bool} {c c' : Collected} {depth : Nat} {id child : DeclarationId}
  {d : Declaration}

/-! ## Circles -/

/-- Whatever registering the declaration looks up is part of the graph. -/
def Registers (g : Graph) (d : Declaration) : Prop :=
  ∀ id ∈ d.symbol, ∃ symbol, g.symbols.find? id = some symbol ∧
    ∀ type ∈ symbol.type, ∃ node, g.types.find? type = some node ∧
      ∀ object, node.kind = .object object →
        ∀ base ∈ object.baseTypes, ∃ node, g.types.find? base = some node

/-- The walk comes out of the declaration again, without a failure. -/
inductive Passes (g : Graph) : DeclarationId → Prop
  | naming {id : DeclarationId} {d : Declaration} (hd : g.declarations.find? id = some d)
    (hnames : d.kind.namesType = true) (h : Registers g d) : Passes g id
  | nesting {id : DeclarationId} {d : Declaration} (hd : g.declarations.find? id = some d)
    (hnames : d.kind.namesType = false) (h : ∀ child ∈ d.children, Passes g child) : Passes g id

/-- In a list of declarations the walk comes to this one: it passes those before it. -/
def ComesTo (g : Graph) (ids : List DeclarationId) (id : DeclarationId) : Prop :=
  ∃ before after, ids = before ++ id :: after ∧ ∀ other ∈ before, Passes g other

/-- Inside of a declaration the walk comes to a child. -/
def Enters (g : Graph) (id child : DeclarationId) : Prop :=
  ∃ d, g.declarations.find? id = some d ∧ d.kind.namesType = false ∧ ComesTo g d.children child

/-- From the declaration the walk is led into a circle. -/
def LeadsAround (g : Graph) (id : DeclarationId) : Prop :=
  ∃ again, ReflTransGen (Enters g) id again ∧ TransGen (Enters g) again again

/-- The walk through the graph comes to a declaration from which it is led into a circle. -/
def Circular (g : Graph) : Prop :=
  ∃ id, ComesTo g (g.modules.flatMap (·.statements)) id ∧ LeadsAround g id

theorem LeadsAround.next (h : LeadsAround g id) :
    ∃ child, Enters g id child ∧ LeadsAround g child := by
  obtain ⟨again, hreach, haround⟩ := h
  rcases hreach.cases_head with rfl | ⟨child, hchild, hreach⟩
  · obtain ⟨child, hchild, hback⟩ := TransGen.head'_iff.1 haround
    exact ⟨child, hchild, id, hback, haround⟩
  · exact ⟨child, hchild, again, hreach, haround⟩

theorem LeadsAround.of_enters (hchild : Enters g id child) (h : LeadsAround g child) :
    LeadsAround g id := by
  obtain ⟨again, hreach, haround⟩ := h
  exact ⟨again, .head hchild hreach, haround⟩

/-! ## Outcomes -/

/-- The failure to look up what is not part of the graph. -/
inductive Missing (g : Graph) : Failure → Prop
  | type {id : TypeId} (h : g.types.find? id = none) : Missing g (.danglingType id.text)
  | symbol {id : SymbolId} (h : g.symbols.find? id = none) : Missing g (.danglingSymbol id.text)
  | declaration {id : DeclarationId} (h : g.declarations.find? id = none) :
    Missing g (.danglingDeclaration id.text)

/-- A table, or the failure to look something up. -/
def Settled (g : Graph) (outcome : Except Failure SymbolTable) : Prop :=
  (∃ table, outcome = .ok table) ∨ ∃ failure, outcome = .error failure ∧ Missing g failure

/-- The table of a graph, where the walk is cut off at another depth. -/
def collectTo (g : Graph) (depth : Nat) : Except Failure SymbolTable × List Notice :=
  let (outcome, c) := (g.modules.forM fun m =>
    m.statements.forM (inspect g m.isDefaultLib depth)).on ⟨empty, []⟩
  (outcome.map fun _ => c.table, c.notices)

theorem collect_eq_collectTo (g : Graph) : collect g = collectTo g (g.declarations.size + 1) := rfl

/-! ## Passing -/

/-- The run ends without a failure, whatever the state is. -/
def Passing (run : Collecting Unit) : Prop := ∀ c, ∃ c', run.on c = (.ok (), c')

/-- The run fails in no other way than by being cut off. -/
def Unfailing (run : Collecting Unit) : Prop :=
  ∀ c, (run.on c).1 = .ok () ∨ Endless (run.on c).1

theorem Passing.of_ok {run : Collecting Unit} (hsteady : Steady run)
    (h : run.on c = (.ok (), c')) : Passing run := by
  intro c₁
  have hend := hsteady c c₁ trivial
  rw [h] at hend
  generalize run.on c₁ = final at hend
  cases hend with
  | ok hvalue _ => exact ⟨_, rfl⟩

theorem Endless.steady {run : Collecting Unit} (hsteady : Steady run)
    (h : Endless (run.on c).1) (c' : Collected) : Endless (run.on c').1 :=
  h.of_parallel (hsteady c c' trivial).outcome

theorem Passing.unfailing {run : Collecting Unit} (h : Passing run) : Unfailing run := by
  intro c
  obtain ⟨c', hrun⟩ := h c
  exact .inl (by rw [hrun])

theorem forM_passing {α : Type} {act : α → Collecting Unit} {elements : List α}
    (h : ∀ a ∈ elements, Passing (act a)) : Passing (elements.forM act) := by
  induction elements with
  | nil => exact fun c => ⟨c, rfl⟩
  | cons a rest ih =>
      obtain ⟨hfirst, hrest⟩ := List.forall_mem_cons.1 h
      intro c
      obtain ⟨c₁, ha⟩ := hfirst c
      rw [List.forM_eq_forM, List.forM_cons, Run.on_bind, ha]
      exact ih hrest c₁

theorem passing_of_forM {α : Type} {act : α → Collecting Unit} {elements : List α}
    (hsteady : ∀ a, Steady (act a)) (h : (elements.forM act).on c = (.ok (), c')) :
    ∀ a ∈ elements, Passing (act a) := by
  induction elements generalizing c with
  | nil => exact List.forall_mem_nil _
  | cons a rest ih =>
      rw [List.forM_eq_forM, List.forM_cons, Run.on_bind_eq_ok] at h
      obtain ⟨_, _, ha, hrest⟩ := h
      exact List.forall_mem_cons.2 ⟨.of_ok (hsteady a) ha, ih hrest⟩

theorem forM_unfailing {α : Type} {act : α → Collecting Unit} {elements : List α}
    (h : ∀ a ∈ elements, Unfailing (act a)) : Unfailing (elements.forM act) := by
  induction elements with
  | nil => exact fun c => .inl rfl
  | cons a rest ih =>
      obtain ⟨hfirst, hrest⟩ := List.forall_mem_cons.1 h
      intro c
      have ha := hfirst c
      rw [List.forM_eq_forM, List.forM_cons, Run.on_bind]
      generalize (act a).on c = final at ha ⊢
      obtain ⟨result, c₁⟩ := final
      rcases ha with rfl | ⟨id, rfl⟩
      · exact ih hrest c₁
      · exact .inr ⟨id, rfl⟩

theorem endless_of_forM {α : Type} {act : α → Collecting Unit} {elements : List α}
    (hsteady : ∀ a, Steady (act a)) (h : Endless ((elements.forM act).on c).1) :
    ∃ before a after, elements = before ++ a :: after ∧ (∀ b ∈ before, Passing (act b)) ∧
      Endless ((act a).on c).1 := by
  induction elements generalizing c with
  | nil =>
      obtain ⟨_, h⟩ := h
      cases h
  | cons a rest ih =>
      rw [List.forM_eq_forM, List.forM_cons, Run.on_bind] at h
      generalize ha : (act a).on c = final at h
      obtain ⟨result, c₁⟩ := final
      cases result with
      | error failure =>
          exact ⟨[], a, rest, rfl, List.forall_mem_nil _, by rw [ha]; exact h⟩
      | ok _ =>
          obtain ⟨before, b, after, rfl, hbefore, hb⟩ := ih h
          exact ⟨a :: before, b, after, rfl,
            List.forall_mem_cons.2 ⟨.of_ok (hsteady a) ha, hbefore⟩, hb.steady (hsteady b) c⟩

theorem forM_endless {α : Type} {act : α → Collecting Unit} {before after : List α} {a : α}
    (hbefore : ∀ b ∈ before, Unfailing (act b)) (ha : ∀ c, Endless ((act a).on c).1)
    (c : Collected) : Endless (((before ++ a :: after).forM act).on c).1 := by
  induction before generalizing c with
  | nil =>
      obtain ⟨id, hend⟩ := ha c
      rw [List.nil_append, List.forM_eq_forM, List.forM_cons, Run.on_bind]
      generalize (act a).on c = final at hend ⊢
      obtain ⟨result, c₁⟩ := final
      cases hend
      exact ⟨id, rfl⟩
  | cons b before ih =>
      obtain ⟨hfirst, hrest⟩ := List.forall_mem_cons.1 hbefore
      have hb := hfirst c
      rw [List.cons_append, List.forM_eq_forM, List.forM_cons, Run.on_bind]
      generalize (act b).on c = final at hb ⊢
      obtain ⟨result, c₁⟩ := final
      rcases hb with rfl | ⟨id, rfl⟩
      · exact ih hrest c₁
      · exact ⟨id, rfl⟩

/-! ## Declarations that name types -/

theorem registers_of_ok (h : (register g isLib d).on c = (.ok (), c')) : Registers g d := by
  unfold register at h
  intro id hid
  rw [Option.mem_def.1 hid] at h
  simp only [Run.on_bind_eq_ok, Run.on_ofExcept_eq_ok] at h
  obtain ⟨symbol, _, ⟨hsymbol, rfl⟩, h⟩ := h
  refine ⟨symbol, Dict.mem_entries_iff.1 (Graph.mem_symbols hsymbol), fun type htype => ?_⟩
  rw [Option.mem_def.1 htype] at h
  simp only [Run.on_bind_eq_ok, Run.on_ofExcept_eq_ok] at h
  obtain ⟨_, _, -, node, _, ⟨hnode, rfl⟩, h⟩ := h
  refine ⟨node, find?_of_typeNode hnode, fun object hobject base hbase => ?_⟩
  rw [hobject] at h
  obtain ⟨_, hstored⟩ := passing_of_forM (storeHeir_steady g _) h base hbase ⟨.empty, []⟩
  simp only [storeHeir, Run.on_bind_eq_ok, Run.on_ofExcept_eq_ok] at hstored
  obtain ⟨node, _, ⟨hbase, -⟩, -⟩ := hstored
  exact ⟨node, find?_of_typeNode hbase⟩

theorem Passing.ofExcept_bind {α : Type} {outcome : Except Failure α} {value : α}
    {next : α → Collecting Unit} (h : outcome = .ok value) (hnext : Passing (next value)) :
    Passing (Run.ofExcept outcome >>= next) := by
  intro c
  rw [Run.on_bind, Run.on_ofExcept, h]
  exact hnext c

theorem typeNode_of_find? {type : TypeId} {node : TypeNode} (h : g.types.find? type = some node) :
    g.typeNode type = .ok node := by
  rw [Graph.typeNode, h]

theorem Registers.passing (h : Registers g d) (isLib : Bool) : Passing (register g isLib d) := by
  unfold register
  split
  · exact fun c => ⟨c, rfl⟩
  · rename_i id hid
    obtain ⟨symbol, hsymbol, htypes⟩ := h id hid
    have hfound : g.symbol id = .ok symbol := by rw [Graph.symbol, hsymbol]
    refine .ofExcept_bind hfound ?_
    split
    · exact fun c => ⟨c, rfl⟩
    · rename_i type htype
      obtain ⟨node, hnode, hbases⟩ := htypes type htype
      intro c
      obtain ⟨notices, hstore⟩ :=
        store_on isLib (QualifiedName.stripModulePath symbol.qualifiedName) type c
      rw [Run.on_bind, hstore]
      refine Passing.ofExcept_bind (typeNode_of_find? hnode) ?_ _
      split
      · rename_i object hobject
        refine forM_passing fun base hbase => ?_
        obtain ⟨_, hfind⟩ := hbases object hobject base hbase
        exact .ofExcept_bind (typeNode_of_find? hfind) fun c => ⟨_, rfl⟩
      · exact fun c => ⟨c, rfl⟩

theorem declaration_avoids {bad : Failure → Prop} (h : ∀ failure, Missing g failure → ¬ bad failure)
    (id : DeclarationId) : Avoids bad (g.declaration id) := by
  cases hfind : g.declarations.find? id with
  | some d =>
      rw [Graph.declaration, hfind]
      exact .ok d
  | none =>
      rw [Graph.declaration, hfind]
      exact .error (h _ (.declaration hfind))

/-- No look-up fails in a way that is not the failure to look something up. -/
theorem readable_of_missing {bad : Failure → Prop}
    (h : ∀ failure, Missing g failure → ¬ bad failure) : g.Readable bad := by
  refine ⟨fun id _ => ?_, fun id _ => ?_, fun id _ => declaration_avoids h id⟩
  · cases hfind : g.types.find? id with
    | some node =>
        rw [Graph.typeNode, hfind]
        exact .ok node
    | none =>
        rw [Graph.typeNode, hfind]
        exact .error (h _ (.type hfind))
  · cases hfind : g.symbols.find? id with
    | some symbol =>
        rw [Graph.symbol, hfind]
        exact .ok symbol
    | none =>
        rw [Graph.symbol, hfind]
        exact .error (h _ (.symbol hfind))

theorem register_not_endless (hd : d ∈ g.declarations.values) :
    ¬ Endless ((register g isLib d).on c).1 := by
  rintro ⟨id, hend⟩
  have hread : g.Readable fun failure => failure = .endlessNesting id := by
    refine readable_of_missing fun failure hmissing heq => ?_
    subst heq
    cases hmissing
  exact (register_avoids hread hd c trivial).2 _ hend rfl

/-! ## Depths -/

theorem passes_of_ok (h : (inspect g isLib depth id).on c = (.ok (), c')) : Passes g id := by
  induction depth generalizing id c c' with
  | zero => cases h
  | succ depth ih =>
      obtain ⟨d, hd, ⟨hnames, h⟩ | ⟨hnames, h⟩⟩ := inspect_cases h
      · exact .naming hd hnames (registers_of_ok h)
      · refine .nesting hd hnames fun child hchild => ?_
        have hpassing := passing_of_forM (inspect_steady g isLib depth) h child hchild
        obtain ⟨_, hpass⟩ := hpassing ⟨.empty, []⟩
        exact ih hpass

theorem Passes.unfailing (h : Passes g id) (isLib : Bool) (depth : Nat) :
    Unfailing (inspect g isLib depth id) := by
  induction h generalizing depth with
  | naming hd hnames hregisters =>
      cases depth with
      | zero => exact fun _ => .inr ⟨_, rfl⟩
      | succ depth =>
          rw [inspect, Graph.declaration, hd]
          refine Passing.unfailing (.ofExcept_bind rfl ?_)
          rw [if_pos hnames]
          exact hregisters.passing isLib
  | nesting hd hnames _ ih =>
      cases depth with
      | zero => exact fun _ => .inr ⟨_, rfl⟩
      | succ depth =>
          intro c
          rw [inspect, Graph.declaration, hd, Run.on_bind, Run.on_ofExcept]
          dsimp only
          rw [if_neg (Bool.eq_false_iff.1 hnames)]
          exact forM_unfailing (fun child hchild => ih child hchild depth) c

/-- The walk is cut off if it comes to a child where it is. -/
theorem endless_of_enters (hchild : Enters g id child)
    (h : ∀ c, Endless ((inspect g isLib depth child).on c).1) (c : Collected) :
    Endless ((inspect g isLib (depth + 1) id).on c).1 := by
  obtain ⟨d, hd, hnames, before, after, hchildren, hbefore⟩ := hchild
  rw [inspect, Graph.declaration, hd, Run.on_bind, Run.on_ofExcept]
  dsimp only
  rw [if_neg (Bool.eq_false_iff.1 hnames), hchildren]
  exact forM_endless (fun other hother => (hbefore other hother).unfailing isLib depth) h c

/-- The walk is cut off only if it comes to a child where it is. -/
theorem enters_of_endless (h : Endless ((inspect g isLib (depth + 1) id).on c).1) :
    ∃ child, Enters g id child ∧ Endless ((inspect g isLib depth child).on c).1 := by
  rw [inspect, Run.on_bind, Run.on_ofExcept] at h
  cases hd : g.declaration id with
  | error failure =>
      rw [hd] at h
      obtain ⟨other, h⟩ := h
      unfold Graph.declaration at hd
      split at hd <;> cases hd
      cases h
  | ok d =>
      rw [hd] at h
      dsimp only at h
      split at h
      · have hmem : d ∈ g.declarations.values := List.mem_map_of_mem
          (Dict.mem_entries_iff.2 (Graph.find?_of_declaration hd))
        exact absurd h (register_not_endless hmem)
      · rename_i hnames
        obtain ⟨before, child, after, hchildren, hbefore, hchild⟩ :=
          endless_of_forM (inspect_steady g isLib depth) h
        refine ⟨child, ⟨d, Graph.find?_of_declaration hd, Bool.eq_false_iff.2 hnames, before, after,
          hchildren, fun other hother => ?_⟩, hchild⟩
        obtain ⟨_, hpass⟩ := hbefore other hother c
        exact passes_of_ok hpass

/-- In a circle the walk goes on at every depth. -/
theorem LeadsAround.endless (h : LeadsAround g id) (isLib : Bool) (depth : Nat) (c : Collected) :
    Endless ((inspect g isLib depth id).on c).1 := by
  induction depth generalizing id c with
  | zero => exact ⟨id.text, rfl⟩
  | succ depth ih =>
      obtain ⟨child, hchild, haround⟩ := h.next
      exact endless_of_enters hchild (fun c => ih haround c) c

/-- The declarations that the walk is inside of when it comes to a declaration. -/
structure Inside (g : Graph) (path : List DeclarationId) (id : DeclarationId) : Prop where
  declared : path ⊆ g.declarations.keys
  nodup : path.Nodup
  entered : ∀ parent ∈ path, TransGen (Enters g) parent id

theorem Inside.enter {path : List DeclarationId} (h : Inside g path id) (hid : id ∉ path)
    (hchild : Enters g id child) : Inside g (id :: path) child := by
  have ⟨d, hd, _⟩ := hchild
  refine ⟨List.cons_subset.2 ⟨Dict.mem_keys_iff.2 ⟨d, hd⟩, h.declared⟩,
    List.nodup_cons.2 ⟨hid, h.nodup⟩, fun parent hmem => ?_⟩
  rcases List.mem_cons.1 hmem with rfl | hmem
  · exact .single hchild
  · exact (h.entered parent hmem).tail hchild

/-- A walk that is cut off beyond the number of declarations has come to one of them twice. -/
theorem leadsAround_of_endless {path : List DeclarationId} (hpath : Inside g path id)
    (hdepth : g.declarations.size < path.length + depth)
    (h : Endless ((inspect g isLib depth id).on c).1) : LeadsAround g id := by
  induction depth generalizing path id with
  | zero =>
      have hle := Dict.length_le_size hpath.nodup hpath.declared
      omega
  | succ depth ih =>
      by_cases hid : id ∈ path
      · exact ⟨id, .refl, hpath.entered id hid⟩
      · obtain ⟨child, hchild, hendless⟩ := enters_of_endless h
        refine .of_enters hchild (ih (hpath.enter hid hchild) ?_ hendless)
        rw [List.length_cons]
        omega

/-! ## The whole graph -/

/-- The statements of all modules, each with whether its module is part of the default library. -/
def statements (g : Graph) : List (Bool × DeclarationId) :=
  g.modules.flatMap fun m => m.statements.map fun id => (m.isDefaultLib, id)

theorem map_statements (g : Graph) :
    (statements g).map (·.2) = g.modules.flatMap (·.statements) := by
  simp [statements, List.map_flatMap, Function.comp_def]

def walk (g : Graph) (depth : Nat) : Collecting Unit :=
  (statements g).forM fun s => inspect g s.1 depth s.2

theorem forM_modules (act : Bool → DeclarationId → Collecting Unit) (modules : List SourceModule) :
    (modules.forM fun m => m.statements.forM (act m.isDefaultLib)) =
      (modules.flatMap fun m => m.statements.map fun id => (m.isDefaultLib, id)).forM
        fun s => act s.1 s.2 := by
  induction modules with
  | nil => rfl
  | cons m rest ih =>
      simp only [List.forM_eq_forM, List.forM_cons, List.flatMap_cons, List.forM_append,
        List.forM_map] at ih ⊢
      rw [ih]

theorem collectTo_eq (g : Graph) (depth : Nat) :
    (collectTo g depth).1 =
      ((walk g depth).on ⟨.empty, []⟩).1.map fun _ => ((walk g depth).on ⟨.empty, []⟩).2.table := by
  unfold collectTo walk statements
  rw [forM_modules fun isLib => inspect g isLib depth]

theorem inspect_avoids_of_missing {bad : Failure → Prop}
    (h : ∀ failure, Missing g failure → ¬ bad failure) (hendless : ∀ id, ¬ bad (.endlessNesting id))
    (isLib : Bool) (depth : Nat) (id : DeclarationId) :
    Run.Avoids (fun _ => True) bad (inspect g isLib depth id) := by
  induction depth generalizing id with
  | zero => exact .throw (hendless id.text)
  | succ depth ih =>
      refine .ofExcept_bind (declaration_avoids h id) fun d hd => ?_
      split
      · exact register_avoids (readable_of_missing h)
          (List.mem_map_of_mem (Dict.mem_entries_iff.2 (Graph.find?_of_declaration hd)))
      · exact .forM fun child _ => ih child

/-- The walk fails in no other way than by a look-up, unless it is cut off. -/
theorem missing_of_walk {failure : Failure} (h : ((walk g depth).on c).1 = .error failure)
    (hend : ¬ Endless ((walk g depth).on c).1) : Missing g failure := by
  have hwalk : Run.Avoids (fun _ => True)
      (fun failure => ¬ Missing g failure ∧ ∀ id, failure ≠ .endlessNesting id) (walk g depth) :=
    .forM fun s _ => inspect_avoids_of_missing (fun _ hmissing hbad => hbad.1 hmissing)
      (fun id hbad => hbad.2 id rfl) s.1 depth s.2
  by_contra hmissing
  refine (hwalk c trivial).2 failure h ⟨hmissing, ?_⟩
  rintro id rfl
  exact hend ⟨id, h⟩

theorem Circular.endless (h : Circular g) (depth : Nat) (c : Collected) :
    Endless ((walk g depth).on c).1 := by
  obtain ⟨id, ⟨before, after, hids, hbefore⟩, haround⟩ := h
  rw [← map_statements] at hids
  obtain ⟨first, last, hsplit, rfl, hlast⟩ := List.map_eq_append_iff.1 hids
  obtain ⟨⟨isLib, _⟩, last, rfl, rfl, rfl⟩ := List.map_eq_cons_iff.1 hlast
  have hpassed : ∀ s ∈ first, Unfailing (inspect g s.1 depth s.2) := fun s hs =>
    (hbefore s.2 (List.mem_map_of_mem hs)).unfailing s.1 depth
  rw [walk, hsplit]
  exact forM_endless hpassed (haround.endless isLib depth) c

theorem circular_of_endless (hdepth : g.declarations.size < depth)
    (h : Endless ((walk g depth).on c).1) : Circular g := by
  have hsteady (s : Bool × DeclarationId) : Steady (inspect g s.1 depth s.2) :=
    inspect_steady g s.1 depth s.2
  obtain ⟨before, ⟨isLib, id⟩, after, hsplit, hbefore, hid⟩ := endless_of_forM hsteady h
  refine ⟨id, ⟨before.map (·.2), after.map (·.2), ?_, fun other hother => ?_⟩,
    leadsAround_of_endless ⟨List.nil_subset _, .nil, nofun⟩ (by simpa using hdepth) hid⟩
  · rw [← map_statements, hsplit, List.map_append, List.map_cons]
  · obtain ⟨s, hs, rfl⟩ := List.mem_map.1 hother
    obtain ⟨_, hpass⟩ := hbefore s hs c
    exact passes_of_ok hpass

theorem settled_collectTo_iff :
    Settled g (collectTo g depth).1 ↔ ¬ Endless ((walk g depth).on ⟨.empty, []⟩).1 := by
  rw [collectTo_eq]
  have hfailure (failure : Failure) : ((walk g depth).on ⟨.empty, []⟩).1 = .error failure →
      ¬ Endless ((walk g depth).on ⟨.empty, []⟩).1 → Missing g failure := missing_of_walk
  generalize (walk g depth).on ⟨.empty, []⟩ = final at hfailure
  obtain ⟨result, c⟩ := final
  cases result with
  | ok _ => exact iff_of_true (.inl ⟨_, rfl⟩) (by rintro ⟨_, h⟩; cases h)
  | error failure =>
      constructor
      · rintro (⟨_, h⟩ | ⟨_, h, hmissing⟩) ⟨id, hend⟩
        · cases h
        · cases h
          cases hend
          cases hmissing
      · exact fun hend => .inr ⟨failure, rfl, hfailure failure rfl hend⟩

/-- A walk through a graph settles, with a table or with the failure to look something up, just if
it is not led into a circle of declarations.  No limit to its depth is the reason: without a circle
the limit is not seen, and in a circle the walk settles at no depth. -/
theorem collect_settles_iff (g : Graph) :
    (Settled g (collect g).1 ↔ ¬ Circular g) ∧
      ((∃ depth, Settled g (collectTo g depth).1) ↔ ¬ Circular g) := by
  have hcollect : Settled g (collect g).1 ↔ ¬ Circular g := by
    rw [collect_eq_collectTo, settled_collectTo_iff, not_iff_not]
    exact ⟨circular_of_endless (Nat.lt_succ_self _), fun h => h.endless _ _⟩
  refine ⟨hcollect, fun ⟨depth, h⟩ hcircular => ?_, fun h => ⟨_, hcollect.2 h⟩⟩
  exact settled_collectTo_iff.1 h (hcircular.endless depth _)

/-- A namespace that is nested in itself. -/
def nestedText : String :=
  "\x7b\"modules\": [\x7b\"fileName\": \"a.ts\", \"statements\": [\"d:a\"]\x7d], " ++
    "\"declarations\": \x7b\"d:a\": \x7b\"kind\": \"module\", \"children\": [\"d:a\"]\x7d\x7d\x7d"

def failsWith (failure : Failure) : Except LoadError Graph → Bool
  | .ok g => match (collect g).1 with
    | .ok _ => false
    | .error found => found = failure
  | .error _ => false

theorem nested_collected : ∃ g, Loading.graph "nested.json" nestedText = .ok g ∧
    (collect g).1 = .error (.endlessNesting "d:a") := by
  have h : failsWith (.endlessNesting "d:a") (Loading.graph "nested.json" nestedText) = true := by
    decide +kernel
  unfold failsWith at h
  split at h
  · rename_i g hg
    split at h
    · cases h
    · rename_i failure hfailure
      exact ⟨g, hg, hfailure.trans (congrArg _ (of_decide_eq_true h))⟩
  · cases h

theorem collect_may_not_settle :
    ¬ ∀ (file text : String) (g : Graph), Loading.graph file text = .ok g →
      Settled g (collect g).1 := by
  intro hclaim
  obtain ⟨g, hload, hfailure⟩ := nested_collected
  obtain ⟨_, htable⟩ | ⟨failure, hsettled, hmissing⟩ := hclaim _ _ g hload
  · rw [hfailure] at htable
    cases htable
  · rw [hfailure] at hsettled
    cases hsettled
    cases hmissing

end TypeSchema.SymbolTable
