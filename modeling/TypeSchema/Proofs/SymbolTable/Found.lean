import TypeSchema.Proofs.SymbolTable.Circles

/-!
# What the walk finds

The walk finds the declarations of named types, depth first and module by module.  `Lists` says
which these are without a depth or a table: a declaration that names a type is listed and not
entered, any other gives way to its children.  The list determines the table and its notices.
-/

namespace TypeSchema.SymbolTable

variable {g : Graph} {isLib : Bool} {c c' : Collected} {depth : Nat} {id : DeclarationId}
  {table : SymbolTable} {work work' : List (Bool × DeclarationId)}
  {found found' : List (Bool × Declaration)}

/-! ## Lists of declarations -/

/-- The declarations of named types among those at hand and what is nested in them, each with
whether its module is part of the default library. -/
inductive Lists (g : Graph) : List (Bool × DeclarationId) → List (Bool × Declaration) → Prop
  | done : Lists g [] []
  | naming {isLib : Bool} {id : DeclarationId} {d : Declaration}
    {work : List (Bool × DeclarationId)} {found : List (Bool × Declaration)}
    (hd : g.declarations.find? id = some d) (hnames : d.kind.namesType = true)
    (h : Lists g work found) : Lists g ((isLib, id) :: work) ((isLib, d) :: found)
  | nesting {isLib : Bool} {id : DeclarationId} {d : Declaration}
    {work : List (Bool × DeclarationId)} {found : List (Bool × Declaration)}
    (hd : g.declarations.find? id = some d) (hnames : d.kind.namesType = false)
    (h : Lists g (d.children.map (isLib, ·) ++ work) found) : Lists g ((isLib, id) :: work) found

theorem Lists.unique (h : Lists g work found) (h' : Lists g work found') : found' = found := by
  induction h generalizing found' with
  | done =>
      cases h'
      rfl
  | naming hd hnames _ ih =>
      cases h' with
      | naming hd' _ h' =>
          rw [hd] at hd'
          cases hd'
          rw [ih h']
      | nesting hd' hnames' _ =>
          rw [hd] at hd'
          cases hd'
          rw [hnames] at hnames'
          cases hnames'
  | nesting hd hnames _ ih =>
      cases h' with
      | naming hd' hnames' _ =>
          rw [hd] at hd'
          cases hd'
          rw [hnames] at hnames'
          cases hnames'
      | nesting hd' _ h' =>
          rw [hd] at hd'
          cases hd'
          exact ih h'

theorem Lists.append (h : Lists g work found) (h' : Lists g work' found') :
    Lists g (work ++ work') (found ++ found') := by
  induction h with
  | done => exact h'
  | naming hd hnames _ ih => exact .naming hd hnames ih
  | nesting hd hnames _ ih =>
      rw [List.append_assoc] at ih
      exact .nesting hd hnames ih

/-- What the listed declarations declare: nothing if they have no symbol, or one without a type. -/
def declaredByAll (g : Graph) (found : List (Bool × Declaration)) : List Declared :=
  found.flatMap fun f => declaredBy g f.1 f.2

/-! ## The walk -/

/-- The declarations that a walk has listed declare the entries. -/
def Finds (g : Graph) (work : List (Bool × DeclarationId)) (entries : List Declared) : Prop :=
  ∃ found, Lists g work found ∧ declaredByAll g found = entries

theorem Finds.flatMap {entries : Bool × DeclarationId → List Declared}
    (h : ∀ s ∈ work, Finds g [s] (entries s)) : Finds g work (work.flatMap entries) := by
  induction work with
  | nil => exact ⟨[], .done, rfl⟩
  | cons s rest ih =>
      obtain ⟨hfirst, hrest⟩ := List.forall_mem_cons.1 h
      obtain ⟨found, hlists, hfound⟩ := hfirst
      obtain ⟨found', hlists', hfound'⟩ := ih hrest
      refine ⟨found ++ found', hlists.append hlists', ?_⟩
      rw [declaredByAll, List.flatMap_append, List.flatMap_cons, ← hfound, ← hfound']
      rfl

theorem finds_of_ok (h : (inspect g isLib depth id).on c = (.ok (), c')) :
    Finds g [(isLib, id)] (declaredWithin g isLib depth id) := by
  induction depth generalizing id c c' with
  | zero => cases h
  | succ depth ih =>
      obtain ⟨d, hd, ⟨hnames, h⟩ | ⟨hnames, h⟩⟩ := inspect_cases h
      · rw [declaredWithin_naming hd hnames]
        exact ⟨[(isLib, d)], .naming hd hnames .done, List.flatMap_singleton ..⟩
      · have hchildren : Finds g (d.children.map (isLib, ·))
            ((d.children.map (isLib, ·)).flatMap fun s => declaredWithin g s.1 depth s.2) := by
          refine .flatMap (List.forall_mem_map.2 fun child hchild => ?_)
          have hpassing := passing_of_forM (inspect_steady g isLib depth) h child hchild
          obtain ⟨_, hpass⟩ := hpassing ⟨.empty, []⟩
          exact ih hpass
        obtain ⟨found, hlists, hfound⟩ := hchildren
        rw [declaredWithin_nesting hd hnames]
        refine ⟨found, .nesting hd hnames ?_, ?_⟩
        · rwa [List.append_nil]
        · rw [hfound, List.flatMap_map]

theorem declared_eq_flatMap (g : Graph) :
    declared g =
      (statements g).flatMap fun s => declaredWithin g s.1 (g.declarations.size + 1) s.2 := by
  unfold declared declaredIn statements
  simp only [List.flatMap_assoc, List.flatMap_map]

theorem finds_declared (h : (collect g).1 = .ok table) : Finds g (statements g) (declared g) := by
  rw [collect_eq_collectTo, collectTo_eq, outcome_map_eq_ok] at h
  obtain ⟨_, hwalk, -⟩ := h
  have hsteady (s : Bool × DeclarationId) :
      Steady (inspect g s.1 (g.declarations.size + 1) s.2) := inspect_steady g s.1 _ s.2
  rw [declared_eq_flatMap]
  refine .flatMap fun s hs => ?_
  obtain ⟨_, hpass⟩ := passing_of_forM hsteady (Prod.ext hwalk rfl) s hs ⟨.empty, []⟩
  exact finds_of_ok hpass

/-! ## The table and its notices -/

/-- A notice for every entry whose name stands for another type by the entries before it. -/
def replacements (entries : List Declared) : List Notice :=
  entries.zipIdx.flatMap fun (entry, i) =>
    if (lastNamed entry.name (entries.take i)).any (·.type ≠ entry.type) then
      [.redeclared entry.name]
    else []

theorem replacements_concat (entries : List Declared) (entry : Declared) :
    replacements (entries ++ [entry]) =
      replacements entries ++
        if (lastNamed entry.name entries).any (·.type ≠ entry.type) then [.redeclared entry.name]
        else [] := by
  have hbefore : (entries.zipIdx.flatMap fun (e, i) =>
      if (lastNamed e.name ((entries ++ [entry]).take i)).any (·.type ≠ e.type) then
        [Notice.redeclared e.name]
      else []) = replacements entries := by
    refine List.flatMap_congr fun ⟨e, i⟩ hmem => ?_
    have hlt := List.snd_lt_of_mem_zipIdx hmem
    dsimp only
    rw [List.take_append_of_le_length (by omega)]
  rw [replacements, List.zipIdx_append, List.flatMap_append, hbefore]
  simp

theorem notices_foldl_enter (entries : List Declared) :
    (entries.foldl (enter g) ⟨.empty, []⟩).notices = replacements entries := by
  induction entries using List.reverseRecOn with
  | nil => rfl
  | append_singleton entries entry ih =>
      rw [List.foldl_append, List.foldl_cons, List.foldl_nil, enter, ih, replacements_concat,
        redeclared, table_foldl_enter]
      change _ ++ (if ((ofDeclared g entries).all.find? entry.name).any _ = true then _ else _) = _
      rw [find?_all, Option.any_map]

/-- A walk that comes to its end lists the declarations of named types, and only they are in the
table: each name in its first place and with its last type, also among the names of the user.  There
is a notice for every one that takes a name from another type. -/
theorem collect_finds (h : (collect g).1 = .ok table) :
    ∃ found, (∀ other, Lists g (statements g) other ↔ other = found) ∧
      IndexOf (declaredByAll g found) table.all ∧
      IndexOf (byUser (declaredByAll g found)) table.user ∧
      (collect g).2 = replacements (declaredByAll g found) := by
  obtain ⟨found, hlists, hfound⟩ := finds_declared h
  refine ⟨found, fun other => ⟨hlists.unique, fun hother => hother ▸ hlists⟩, ?_⟩
  rw [hfound, collect_eq_ofDeclared h, (collect_eq_foldl_enter h).2]
  exact ⟨indexOf_all _, indexOf_user _, notices_foldl_enter _⟩

/-- A class `Shape` in a namespace, and in a later module another declaration of this name. -/
def shapeGraph : Graph where
  modules := [⟨"lib.d.ts", true, [⟨"Date"⟩]⟩, ⟨"src/a.ts", false, [⟨"ns"⟩]⟩,
    ⟨"src/b.ts", false, [⟨"Shape2"⟩]⟩]
  declarations := .ofEntries [
    (⟨"Date"⟩, { Declaration.blank with kind := .interface, symbol := some ⟨"Date"⟩ }),
    (⟨"ns"⟩, { Declaration.blank with kind := .module, children := [⟨"Shape"⟩] }),
    (⟨"Shape"⟩, { Declaration.blank with kind := .classType, symbol := some ⟨"Shape"⟩ }),
    (⟨"Shape2"⟩, { Declaration.blank with kind := .interface, symbol := some ⟨"Shape2"⟩ })]
  symbols := .ofEntries [
    (⟨"Date"⟩, { Symbol.blank with
      name := "Date", qualifiedName := "Date", type := some ⟨"Date"⟩ }),
    (⟨"Shape"⟩, { Symbol.blank with
      name := "Shape", qualifiedName := "\"src/a\".Shape", type := some ⟨"Shape"⟩ }),
    (⟨"Shape2"⟩, { Symbol.blank with
      name := "Shape", qualifiedName := "\"src/b\".Shape", type := some ⟨"Shape2"⟩ })]
  types := .ofEntries [
    (⟨"Date"⟩, ⟨"Date", some ⟨"Date"⟩, .object .blank⟩),
    (⟨"Shape"⟩, ⟨"\"src/a\".Shape", some ⟨"Shape"⟩, .object .blank⟩),
    (⟨"Shape2"⟩, ⟨"\"src/b\".Shape", some ⟨"Shape2"⟩, .object .blank⟩)]
  diagnostics := []
  strictNullChecks := false

theorem collect_finds_shape :
    ∃ table, (collect shapeGraph).1 = .ok table ∧ table.all.keys = ["Date", "Shape"] ∧
      table.user.keys = ["Shape"] ∧ (collect shapeGraph).2 = [.redeclared "Shape"] ∧
      ∃ found, (∀ other, Lists shapeGraph (statements shapeGraph) other ↔ other = found) ∧
        IndexOf (declaredByAll shapeGraph found) table.all ∧
        IndexOf (byUser (declaredByAll shapeGraph found)) table.user ∧
        (collect shapeGraph).2 = replacements (declaredByAll shapeGraph found) := by
  obtain ⟨table, htable, hkeys⟩ : ∃ table, (collect shapeGraph).1 = .ok table ∧
      decide (table.all.keys = ["Date", "Shape"] ∧ table.user.keys = ["Shape"]) = true :=
    exists_table (by decide +kernel)
  obtain ⟨hall, huser⟩ := of_decide_eq_true hkeys
  exact ⟨table, htable, hall, huser, by decide +kernel, collect_finds htable⟩

end TypeSchema.SymbolTable
