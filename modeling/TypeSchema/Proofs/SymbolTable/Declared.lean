import Mathlib.Data.List.Induction
import TypeSchema.Proofs.Schema.Shapes
import TypeSchema.SymbolTable

/-!
# What a table is collected from

The walk through the declarations of a graph comes to those that name types, one after the other.
`declared` lists what they declare, without any table.  The table is made from this list alone,
entry by entry, so that each of its parts can be read off the list: the last entry of a name
decides, and every entry adds its name to the heirs of the types that it extends.
-/

namespace TypeSchema.SymbolTable

variable {g : Graph} {isLib : Bool} {c c' : Collected} {u : Unit} {table : SymbolTable}
  {entries : List Declared}

/-! ## Entries -/

/-- A name that is declared for a type. -/
structure Declared where
  name : String
  type : TypeId
  isLib : Bool
  deriving DecidableEq

def displayNames (g : Graph) (types : List TypeId) : List String :=
  types.filterMap fun type =>
    (g.types.find? type).map fun node => QualifiedName.stripModulePath node.name

/-- The names of the types that an object type extends. -/
def baseNames (g : Graph) (type : TypeId) : List String :=
  match g.types.find? type with
  | some ⟨_, _, .object object⟩ => displayNames g object.baseTypes
  | _ => []

def declaredBy (g : Graph) (isLib : Bool) (d : Declaration) : List Declared :=
  match d.symbol.bind g.symbols.find? with
  | some symbol =>
    (symbol.type.map fun type =>
      ⟨QualifiedName.stripModulePath symbol.qualifiedName, type, isLib⟩).toList
  | none => []

/-- What is declared in a declaration and its children, down to a depth. -/
def declaredWithin (g : Graph) (isLib : Bool) : Nat → DeclarationId → List Declared
  | 0, _ => []
  | depth + 1, id =>
    match g.declarations.find? id with
    | some d =>
      if d.kind.namesType then declaredBy g isLib d
      else d.children.flatMap (declaredWithin g isLib depth)
    | none => []

theorem declaredWithin_naming {id : DeclarationId} {d : Declaration}
    (hd : g.declarations.find? id = some d) (hnames : d.kind.namesType = true) (depth : Nat) :
    declaredWithin g isLib (depth + 1) id = declaredBy g isLib d := by
  rw [declaredWithin, hd]
  exact if_pos hnames

theorem declaredWithin_nesting {id : DeclarationId} {d : Declaration}
    (hd : g.declarations.find? id = some d) (hnames : d.kind.namesType = false) (depth : Nat) :
    declaredWithin g isLib (depth + 1) id =
      d.children.flatMap (declaredWithin g isLib depth) := by
  rw [declaredWithin, hd]
  exact if_neg (Bool.eq_false_iff.1 hnames)

def declaredIn (g : Graph) (m : SourceModule) : List Declared :=
  m.statements.flatMap (declaredWithin g m.isDefaultLib (g.declarations.size + 1))

def declared (g : Graph) : List Declared := g.modules.flatMap (declaredIn g)

/-! ## The table -/

def addHeirs (heir : String) (bases : List String) (heirs : Dict String (List String)) :
    Dict String (List String) :=
  bases.foldl (fun heirs base => addHeir base heir heirs) heirs

def add (g : Graph) (t : SymbolTable) (entry : Declared) : SymbolTable where
  all := t.all.insert entry.name entry.type
  user := if entry.isLib then t.user else t.user.insert entry.name entry.type
  inheriting := addHeirs entry.name (baseNames g entry.type) t.inheriting

def ofDeclared (g : Graph) (entries : List Declared) : SymbolTable := entries.foldl (add g) .empty

theorem ofDeclared_concat (entries : List Declared) (entry : Declared) :
    ofDeclared g (entries ++ [entry]) = add g (ofDeclared g entries) entry := by
  rw [ofDeclared, List.foldl_append]
  rfl

/-- The notice about an entry whose name stands for another type so far. -/
def redeclared (t : SymbolTable) (entry : Declared) : List Notice :=
  if (t.all.find? entry.name).any (· ≠ entry.type) then [.redeclared entry.name] else []

/-- What the walk makes of an entry. -/
def enter (g : Graph) (c : Collected) (entry : Declared) : Collected :=
  ⟨add g c.table entry, c.notices ++ redeclared c.table entry⟩

theorem table_foldl_enter (entries : List Declared) (c : Collected) :
    (entries.foldl (enter g) c).table = entries.foldl (add g) c.table := by
  induction entries generalizing c with
  | nil => rfl
  | cons entry rest ih => exact ih (enter g c entry)

/-! ## The walk -/

theorem find?_of_typeNode {type : TypeId} {node : TypeNode} (h : g.typeNode type = .ok node) :
    g.types.find? type = some node :=
  Dict.mem_entries_iff.1 (Graph.mem_types h)

theorem store_ok {name : String} {type : TypeId} (h : (store isLib name type).on c = (.ok u, c')) :
    c' = ⟨{ c.table with
      all := c.table.all.insert name type
      user := if isLib then c.table.user else c.table.user.insert name type },
      c.notices ++ redeclared c.table ⟨name, type, isLib⟩⟩ := by
  unfold store at h
  rw [Run.on_bind_eq_ok] at h
  obtain ⟨_, _, hread, h⟩ := h
  cases hread
  unfold redeclared
  dsimp only at h ⊢
  split at h
  · rename_i hother
    rw [if_pos hother]
    cases isLib <;> cases h <;> rfl
  · rename_i hsame
    rw [if_neg hsame, List.append_nil]
    cases isLib <;> cases h <;> rfl

theorem storeHeirs_ok {heir : String} {bases : List TypeId}
    (h : (bases.forM (storeHeir g heir)).on c = (.ok u, c')) :
    c' = { c with table := { c.table with
      inheriting := addHeirs heir (displayNames g bases) c.table.inheriting } } := by
  induction bases generalizing c with
  | nil =>
      cases h
      rfl
  | cons base rest ih =>
      rw [List.forM_eq_forM, List.forM_cons, Run.on_bind_eq_ok] at h
      obtain ⟨_, c₁, hbase, hrest⟩ := h
      simp only [storeHeir, Run.on_bind_eq_ok, Run.on_ofExcept_eq_ok] at hbase
      obtain ⟨node, _, ⟨hnode, rfl⟩, hupdate⟩ := hbase
      cases hupdate
      have hnames : displayNames g (base :: rest) =
          QualifiedName.stripModulePath node.name :: displayNames g rest := by
        simp [displayNames, find?_of_typeNode hnode]
      rw [ih hrest, hnames]
      rfl

theorem register_ok {d : Declaration} (h : (register g isLib d).on c = (.ok u, c')) :
    c' = (declaredBy g isLib d).foldl (enter g) c := by
  unfold register at h
  unfold declaredBy
  split at h
  · rename_i hsymbol
    cases h
    rw [hsymbol]
    rfl
  · rename_i id hsymbol
    simp only [Run.on_bind_eq_ok, Run.on_ofExcept_eq_ok] at h
    obtain ⟨symbol, _, ⟨hfind, rfl⟩, h⟩ := h
    rw [hsymbol, Option.bind_some, Dict.mem_entries_iff.1 (Graph.mem_symbols hfind)]
    dsimp only
    split at h
    · rename_i htype
      cases h
      rw [htype]
      rfl
    · rename_i type htype
      simp only [Run.on_bind_eq_ok, Run.on_ofExcept_eq_ok] at h
      obtain ⟨_, c₁, hstore, node, _, ⟨hnode, rfl⟩, h⟩ := h
      rw [htype, Option.map_some, Option.toList_some, List.foldl_cons, List.foldl_nil, enter, add]
      obtain ⟨name, owner, kind⟩ := node
      rw [baseNames, find?_of_typeNode hnode]
      cases kind with
      | object object => rw [storeHeirs_ok h, store_ok hstore]
      | _ =>
          cases h
          rw [store_ok hstore]
          rfl

theorem forM_ok {α : Type} {act : α → Collecting Unit} {entries : α → List Declared}
    {elements : List α}
    (hact : ∀ {a c c' u}, (act a).on c = (.ok u, c') → c' = (entries a).foldl (enter g) c)
    (h : (elements.forM act).on c = (.ok u, c')) :
    c' = (elements.flatMap entries).foldl (enter g) c := by
  induction elements generalizing c with
  | nil =>
      cases h
      rfl
  | cons a rest ih =>
      rw [List.forM_eq_forM, List.forM_cons, Run.on_bind_eq_ok] at h
      obtain ⟨_, c₁, ha, hrest⟩ := h
      rw [ih hrest, hact ha, List.flatMap_cons, List.foldl_append]

/-- A declaration that the walk comes out of again has named a type, or the walk has come out of its
children. -/
theorem inspect_cases {depth : Nat} {id : DeclarationId}
    (h : (inspect g isLib (depth + 1) id).on c = (.ok u, c')) :
    ∃ d, g.declarations.find? id = some d ∧
      (d.kind.namesType = true ∧ (register g isLib d).on c = (.ok u, c') ∨
        d.kind.namesType = false ∧
          (d.children.forM (inspect g isLib depth)).on c = (.ok u, c')) := by
  simp only [inspect, Run.on_bind_eq_ok, Run.on_ofExcept_eq_ok] at h
  obtain ⟨d, _, ⟨hd, rfl⟩, h⟩ := h
  refine ⟨d, Graph.find?_of_declaration hd, ?_⟩
  split at h
  · rename_i hnames
    exact .inl ⟨hnames, h⟩
  · rename_i hnames
    exact .inr ⟨Bool.eq_false_iff.2 hnames, h⟩

theorem inspect_ok {depth : Nat} {id : DeclarationId}
    (h : (inspect g isLib depth id).on c = (.ok u, c')) :
    c' = (declaredWithin g isLib depth id).foldl (enter g) c := by
  induction depth generalizing id c c' u with
  | zero => cases h
  | succ depth ih =>
      obtain ⟨d, hd, ⟨hnames, h⟩ | ⟨hnames, h⟩⟩ := inspect_cases h
      · rw [declaredWithin_naming hd hnames]
        exact register_ok h
      · rw [declaredWithin_nesting hd hnames]
        exact forM_ok ih h

/-- The walk makes a table and its notices from what is declared in the graph. -/
theorem collect_eq_foldl_enter (h : (collect g).1 = .ok table) :
    table = ((declared g).foldl (enter g) ⟨.empty, []⟩).table ∧
      (collect g).2 = ((declared g).foldl (enter g) ⟨.empty, []⟩).notices := by
  have hwalk {c : Collected} {u : Unit}
      (h : (g.modules.forM (inspectModule g)).on ⟨.empty, []⟩ = (.ok u, c)) :
      c = (declared g).foldl (enter g) ⟨.empty, []⟩ :=
    forM_ok (fun hmodule => forM_ok inspect_ok hmodule) h
  unfold collect at h ⊢
  generalize (g.modules.forM (inspectModule g)).on ⟨.empty, []⟩ = outcome at h hwalk ⊢
  obtain ⟨result, c⟩ := outcome
  cases result with
  | error failure => cases h
  | ok _ =>
      cases h
      rw [← hwalk rfl]
      exact ⟨rfl, rfl⟩

theorem collect_eq_ofDeclared (h : (collect g).1 = .ok table) :
    table = ofDeclared g (declared g) := by
  rw [(collect_eq_foldl_enter h).1, table_foldl_enter]
  rfl

theorem exists_table {check : SymbolTable → Bool}
    (h : (collect g).1.toOption.any check = true) :
    ∃ table, (collect g).1 = .ok table ∧ check table = true := by
  generalize (collect g).1 = outcome at h
  cases outcome with
  | error failure => cases h
  | ok table => exact ⟨table, rfl, h⟩

/-! ## Reading the table -/

/-- The entry that decides what a name stands for. -/
def lastNamed (name : String) (entries : List Declared) : Option Declared :=
  entries.reverse.find? (·.name = name)

theorem lastNamed_concat (name : String) (entries : List Declared) (entry : Declared) :
    lastNamed name (entries ++ [entry]) =
      if entry.name = name then some entry else lastNamed name entries := by
  rw [lastNamed, List.reverse_append, List.reverse_singleton, List.singleton_append,
    List.find?_cons]
  by_cases hname : entry.name = name
  · simp [hname]
  · simp [hname, lastNamed]

theorem lastNamed_cons (name : String) (entry : Declared) (entries : List Declared) :
    lastNamed name (entry :: entries) =
      (lastNamed name entries).or (if entry.name = name then some entry else none) := by
  rw [lastNamed, List.reverse_cons, List.find?_append, List.find?_singleton, ← lastNamed]
  simp only [decide_eq_true_eq]

theorem lastNamed_eq_some {name : String} {entries : List Declared} {entry : Declared}
    (h : lastNamed name entries = some entry) : entry ∈ entries ∧ entry.name = name := by
  unfold lastNamed at h
  have hname := List.find?_some h
  exact ⟨List.mem_reverse.1 (List.mem_of_find?_eq_some h), of_decide_eq_true hname⟩

theorem exists_lastNamed {entries : List Declared} {entry : Declared} (h : entry ∈ entries) :
    ∃ last, lastNamed entry.name entries = some last :=
  Option.isSome_iff_exists.1
    (List.find?_isSome.2 ⟨entry, List.mem_reverse.2 h, decide_eq_true rfl⟩)

/-- The names of the entries, in the order in which they first appear, each for the type of its last
entry. -/
structure IndexOf (entries : List Declared) (names : Dict String TypeId) : Prop where
  keys : names.keys = (entries.map (·.name)).eraseDups
  last : ∀ name, names.find? name = (lastNamed name entries).map (·.type)

theorem eraseDups_concat {names : List String} {name : String} :
    (names ++ [name]).eraseDups =
      if name ∈ names then names.eraseDups else names.eraseDups ++ [name] := by
  rw [List.eraseDups_append]
  by_cases hmem : name ∈ names
  · simp [List.removeAll, hmem]
  · simp [List.removeAll, hmem, List.eraseDups_cons]

/-- An index with one more entry. -/
theorem IndexOf.insert {names : Dict String TypeId} (h : IndexOf entries names) (entry : Declared) :
    IndexOf (entries ++ [entry]) (names.insert entry.name entry.type) where
  keys := by
    rw [Dict.keys_insert, h.keys, List.map_append, List.map_singleton, eraseDups_concat]
    simp
  last name := by
    rw [Dict.find?_insert, lastNamed_concat, h.last]
    by_cases hname : entry.name = name
    · simp [hname]
    · simp [hname, Ne.symm hname]

theorem indexOf_all (entries : List Declared) : IndexOf entries (ofDeclared g entries).all := by
  induction entries using List.reverseRecOn with
  | nil => exact ⟨rfl, fun _ => rfl⟩
  | append_singleton entries entry ih =>
      rw [ofDeclared_concat]
      exact ih.insert entry

theorem find?_all (entries : List Declared) (name : String) :
    (ofDeclared g entries).all.find? name = (lastNamed name entries).map (·.type) :=
  (indexOf_all entries).last name

/-- What is declared outside the default library. -/
def byUser (entries : List Declared) : List Declared := entries.filter (!·.isLib)

theorem byUser_concat (entries : List Declared) (entry : Declared) :
    byUser (entries ++ [entry]) =
      if entry.isLib then byUser entries else byUser entries ++ [entry] := by
  rw [byUser, List.filter_append, ← byUser]
  cases hlib : entry.isLib <;> simp [hlib]

theorem lastNamed_byUser {entries : List Declared} {name : String} {last : Declared}
    (h : lastNamed name entries = some last) (hlast : last.isLib = false) :
    lastNamed name (byUser entries) = some last := by
  induction entries using List.reverseRecOn with
  | nil => cases h
  | append_singleton entries entry ih =>
      rw [lastNamed_concat] at h
      rw [byUser_concat]
      by_cases hname : entry.name = name
      · rw [if_pos hname] at h
        cases h
        rw [hlast, if_neg Bool.false_ne_true, lastNamed_concat, if_pos hname]
      · rw [if_neg hname] at h
        split
        · exact ih h
        · rw [lastNamed_concat, if_neg hname]
          exact ih h

theorem indexOf_user (entries : List Declared) :
    IndexOf (byUser entries) (ofDeclared g entries).user := by
  induction entries using List.reverseRecOn with
  | nil => exact ⟨rfl, fun _ => rfl⟩
  | append_singleton entries entry ih =>
      rw [ofDeclared_concat, byUser_concat, add]
      split
      · exact ih
      · exact ih.insert entry

theorem find?_user (entries : List Declared) (name : String) :
    (ofDeclared g entries).user.find? name = (lastNamed name (byUser entries)).map (·.type) :=
  (indexOf_user entries).last name

def heirs (t : SymbolTable) (base : String) : List String := (t.inheriting.find? base).getD []

theorem getD_addHeirs (heir base : String) (bases : List String)
    (heirs : Dict String (List String)) :
    ((addHeirs heir bases heirs).find? base).getD [] =
      (heirs.find? base).getD [] ++ List.replicate (bases.count base) heir := by
  induction bases generalizing heirs with
  | nil => simp [addHeirs]
  | cons other rest ih =>
      change ((addHeirs heir rest (addHeir other heir heirs)).find? base).getD [] = _
      rw [ih, addHeir, Dict.find?_insert]
      by_cases hother : base = other
      · subst hother
        rw [if_pos rfl, Option.getD_some, List.count_cons_self, List.append_assoc,
          List.singleton_append, List.replicate_succ]
      · rw [if_neg hother, List.count_cons_of_ne (Ne.symm hother)]

/-- Every entry is listed once for each time that its type extends the base. -/
theorem heirs_ofDeclared (entries : List Declared) (base : String) :
    (ofDeclared g entries).heirs base =
      entries.flatMap fun entry =>
        List.replicate ((baseNames g entry.type).count base) entry.name := by
  induction entries using List.reverseRecOn with
  | nil => rfl
  | append_singleton entries entry ih =>
      rw [ofDeclared_concat, List.flatMap_append, ← ih, heirs, add, getD_addHeirs, heirs,
        List.flatMap_singleton]

end TypeSchema.SymbolTable
