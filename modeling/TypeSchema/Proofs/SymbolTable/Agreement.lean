import Mathlib.Data.List.Nodup
import TypeSchema.Proofs.SymbolTable.Declared

/-!
# How the parts of a table agree

The types of the user and the heirs of a base are collected beside the table of all types, and each
part has its own way with a name that is declared again: among all types it stands for its last
type, among those of the user for its last type outside the default library, and among the heirs of
a base it is listed for every type that it ever stood for.
-/

namespace TypeSchema.SymbolTable

variable {g : Graph} {table : SymbolTable} {base name : String} {type : TypeId}
  {entries : List Declared}

/-! ## Types of the user -/

/-- A name of the user stands for the same type among all types just if its last declaration is not
part of the default library, or is for this type again. -/
theorem user_agrees_iff (h : (collect g).1 = .ok table)
    (huser : table.user.find? name = some type) :
    ∃ last, lastNamed name (declared g) = some last ∧ table.all.find? name = some last.type ∧
      (table.all.find? name = some type ↔ (last.isLib = true → last.type = type)) := by
  rw [collect_eq_ofDeclared h, find?_user, Option.map_eq_some_iff] at huser
  obtain ⟨own, hown, rfl⟩ := huser
  obtain ⟨hmem, rfl⟩ := lastNamed_eq_some hown
  obtain ⟨last, hlast⟩ := exists_lastNamed (List.mem_of_mem_filter hmem)
  have hall : table.all.find? own.name = some last.type := by
    rw [collect_eq_ofDeclared h, find?_all, hlast, Option.map_some]
  refine ⟨last, hlast, hall, ?_⟩
  rw [hall, Option.some.injEq]
  constructor
  · exact fun heq _ => heq
  · intro hlib
    cases hkind : last.isLib with
    | true => exact hlib hkind
    | false =>
        rw [lastNamed_byUser hlast hkind] at hown
        cases hown
        rfl

/-- An interface `Event` of the user, in a module before that of the library, which declares one
too. -/
def eventGraph : Graph where
  modules := [⟨"events.ts", false, [⟨"events.Event"⟩]⟩, ⟨"lib.dom.d.ts", true, [⟨"Event"⟩]⟩]
  declarations := .ofEntries [
    (⟨"events.Event"⟩, { Declaration.blank with
      kind := .interface, symbol := some ⟨"events.Event"⟩ }),
    (⟨"Event"⟩, { Declaration.blank with kind := .interface, symbol := some ⟨"Event"⟩ })]
  symbols := .ofEntries [
    (⟨"events.Event"⟩, { Symbol.blank with
      name := "Event", qualifiedName := "\"events\".Event", type := some ⟨"events.Event"⟩ }),
    (⟨"Event"⟩, { Symbol.blank with
      name := "Event", qualifiedName := "Event", type := some ⟨"Event"⟩ })]
  types := .ofEntries [
    (⟨"events.Event"⟩, ⟨"\"events\".Event", some ⟨"events.Event"⟩, .object .blank⟩),
    (⟨"Event"⟩, ⟨"Event", some ⟨"Event"⟩, .object .blank⟩)]
  diagnostics := []
  strictNullChecks := false

theorem event_collected :
    ∃ table, (collect eventGraph).1 = .ok table ∧
      table.user.find? "Event" = some ⟨"events.Event"⟩ ∧
      table.all.find? "Event" = some ⟨"Event"⟩ := by
  obtain ⟨table, htable, hcheck⟩ : ∃ table, (collect eventGraph).1 = .ok table ∧
      decide (table.user.find? "Event" = some ⟨"events.Event"⟩ ∧
        table.all.find? "Event" = some ⟨"Event"⟩) = true := exists_table (by decide +kernel)
  exact ⟨table, htable, of_decide_eq_true hcheck⟩

theorem user_agrees_iff_event :
    ∃ table, (collect eventGraph).1 = .ok table ∧
      table.user.find? "Event" = some ⟨"events.Event"⟩ ∧
      ∃ last, lastNamed "Event" (declared eventGraph) = some last ∧
        table.all.find? "Event" = some last.type ∧
        (table.all.find? "Event" = some ⟨"events.Event"⟩ ↔
          (last.isLib = true → last.type = ⟨"events.Event"⟩)) := by
  obtain ⟨table, htable, huser, -⟩ := event_collected
  exact ⟨table, htable, huser, user_agrees_iff htable huser⟩

/-- A name may stand for one type among those of the user and for another among all types. -/
theorem user_may_disagree :
    ¬ ∀ (g : Graph) (table : SymbolTable) (name : String) (type : TypeId),
      (collect g).1 = .ok table → table.user.find? name = some type →
      table.all.find? name = some type := by
  intro hclaim
  obtain ⟨table, htable, huser, hall⟩ := event_collected
  have hsame := hclaim eventGraph table "Event" _ htable huser
  rw [hall] at hsame
  exact absurd hsame (by decide)

/-! ## Heirs -/

/-- An object type that has a base type of this name. -/
def Extends (g : Graph) (type : TypeId) (base : String) : Prop :=
  ∃ display owner object, g.types.find? type = some ⟨display, owner, .object object⟩ ∧
    ∃ id ∈ object.baseTypes, ∃ node, g.types.find? id = some node ∧
      QualifiedName.stripModulePath node.name = base

theorem mem_baseNames : base ∈ baseNames g type ↔ Extends g type base := by
  unfold baseNames Extends
  split
  · rename_i display owner object hfind
    simp [displayNames, hfind]
  · rename_i hother
    simp only [List.not_mem_nil, false_iff]
    rintro ⟨display, owner, object, hfind, -⟩
    exact hother display owner object hfind

/-- The heirs of a base are the names whose types extend it, and each of them is listed once. -/
structure HeirsAgree (g : Graph) (table : SymbolTable) (base : String) : Prop where
  nodup : (table.heirs base).Nodup
  mem_iff : ∀ name, name ∈ table.heirs base ↔
    ∃ type, table.all.find? name = some type ∧ Extends g type base

/-- No type extends the base twice, and no name whose type extends it is declared again. -/
structure ExtendedOnce (g : Graph) (base : String) : Prop where
  once : ∀ entry ∈ declared g, (baseNames g entry.type).count base ≤ 1
  final : (declared g).Pairwise fun entry later =>
    entry.name = later.name → ¬ Extends g entry.type base

/-- The heirs that a list of declarations gives a base. -/
def heirsOf (g : Graph) (base : String) (entries : List Declared) : List String :=
  entries.flatMap fun entry => List.replicate ((baseNames g entry.type).count base) entry.name

theorem mem_replicate_count {entry : Declared} :
    name ∈ List.replicate ((baseNames g entry.type).count base) entry.name ↔
      Extends g entry.type base ∧ entry.name = name := by
  rw [List.mem_replicate, ← Nat.pos_iff_ne_zero, List.count_pos_iff, mem_baseNames,
    eq_comm (a := name)]

theorem mem_heirsOf :
    name ∈ heirsOf g base entries ↔
      ∃ entry ∈ entries, Extends g entry.type base ∧ entry.name = name := by
  simp only [heirsOf, List.mem_flatMap, mem_replicate_count]

theorem nodup_heirsOf :
    (heirsOf g base entries).Nodup ↔
      (∀ entry ∈ entries, (baseNames g entry.type).count base ≤ 1) ∧
        entries.Pairwise fun entry later =>
          entry.name = later.name → Extends g entry.type base → ¬ Extends g later.type base := by
  simp only [heirsOf, List.nodup_flatMap, List.nodup_replicate]
  refine and_congr_right fun _ => List.Pairwise.iff ?_
  intro entry later
  simp only [Function.onFun, List.Disjoint, mem_replicate_count]
  constructor
  · intro h hname hentry hlater
    exact h ⟨hentry, rfl⟩ ⟨hlater, hname.symm⟩
  · rintro h _ ⟨hentry, rfl⟩ ⟨hlater, hname⟩
    exact h hname.symm hentry hlater

/-- If names are not declared again, what extends the base is the last of its name. -/
theorem last_extends {entry last : Declared}
    (hfinal : entries.Pairwise fun entry later =>
      entry.name = later.name → ¬ Extends g entry.type base)
    (hentry : entry ∈ entries) (hbase : Extends g entry.type base)
    (hlast : lastNamed entry.name entries = some last) : Extends g last.type base := by
  induction entries with
  | nil => exact absurd hentry List.not_mem_nil
  | cons first rest ih =>
      obtain ⟨hfirst, hrest⟩ := List.pairwise_cons.1 hfinal
      rw [lastNamed_cons] at hlast
      rcases List.mem_cons.1 hentry with rfl | hentry
      · -- The name is not declared again, so that the entry is itself the last.
        cases hlater : lastNamed entry.name rest with
        | none =>
            rw [hlater, if_pos rfl] at hlast
            cases hlast
            exact hbase
        | some later =>
            obtain ⟨hmem, hname⟩ := lastNamed_eq_some hlater
            exact absurd hbase (hfirst later hmem hname.symm)
      · obtain ⟨later, hlater⟩ := exists_lastNamed hentry
        rw [hlater] at hlast
        cases hlast
        exact ih hrest hentry hlater

/-- If what extends the base is the last of its name or followed by a last one that extends it too,
and no two of a name extend it, then names are not declared again. -/
theorem final_of_alone
    (halone : entries.Pairwise fun entry later =>
      entry.name = later.name → Extends g entry.type base → ¬ Extends g later.type base)
    (hlast : ∀ entry ∈ entries, Extends g entry.type base →
      ∀ last, lastNamed entry.name entries = some last → Extends g last.type base) :
    entries.Pairwise fun entry later =>
      entry.name = later.name → ¬ Extends g entry.type base := by
  induction entries with
  | nil => exact .nil
  | cons first rest ih =>
      obtain ⟨hfirst, hrest⟩ := List.pairwise_cons.1 halone
      refine List.pairwise_cons.2 ⟨fun later hlater hname hbase => ?_, ih hrest ?_⟩
      · -- If it were, the last of the name would extend the base as well as the first.
        obtain ⟨last, hlaterLast⟩ := exists_lastNamed hlater
        rw [← hname] at hlaterLast
        obtain ⟨hmem, hlastName⟩ := lastNamed_eq_some hlaterLast
        refine hfirst last hmem hlastName.symm hbase (hlast first List.mem_cons_self hbase last ?_)
        rw [lastNamed_cons, hlaterLast]
        rfl
      · intro entry hentry hbase last hrestLast
        refine hlast entry (List.mem_cons_of_mem _ hentry) hbase last ?_
        rw [lastNamed_cons, hrestLast]
        rfl

/-- A base lists each declaration of a name once for every time that its type extends the base.
These are the names whose types extend it, without repeats, just if no type extends it twice and no
name whose type extends it is declared again. -/
theorem heirs_agree_iff (h : (collect g).1 = .ok table) (base : String) :
    table.heirs base = heirsOf g base (declared g) ∧
      (HeirsAgree g table base ↔ ExtendedOnce g base) := by
  have hheirs : table.heirs base = heirsOf g base (declared g) := by
    rw [collect_eq_ofDeclared h, heirs_ofDeclared, heirsOf]
  have hall (name : String) :
      table.all.find? name = (lastNamed name (declared g)).map (·.type) := by
    rw [collect_eq_ofDeclared h, find?_all]
  refine ⟨hheirs, ?_⟩
  constructor
  · rintro ⟨hnodup, hmem⟩
    rw [hheirs] at hnodup hmem
    obtain ⟨honce, halone⟩ := nodup_heirsOf.1 hnodup
    refine ⟨honce, final_of_alone halone fun entry hentry hbase last hlast => ?_⟩
    obtain ⟨type, htype, hextends⟩ :=
      (hmem entry.name).1 (mem_heirsOf.2 ⟨entry, hentry, hbase, rfl⟩)
    rw [hall, hlast] at htype
    cases htype
    exact hextends
  · rintro ⟨honce, hfinal⟩
    constructor
    · rw [hheirs, nodup_heirsOf]
      exact ⟨honce, hfinal.imp fun h hname hbase _ => h hname hbase⟩
    · intro name
      rw [hheirs, mem_heirsOf, hall]
      constructor
      · rintro ⟨entry, hentry, hbase, rfl⟩
        obtain ⟨last, hlast⟩ := exists_lastNamed hentry
        exact ⟨last.type, by rw [hlast]; rfl, last_extends hfinal hentry hbase hlast⟩
      · rintro ⟨type, htype, hbase⟩
        obtain ⟨last, hlast, rfl⟩ := Option.map_eq_some_iff.1 htype
        obtain ⟨hmem, hname⟩ := lastNamed_eq_some hlast
        exact ⟨last, hmem, hbase, hname⟩

/-- An interface `Circle` that extends `Shape` and is written in two parts. -/
def circleGraph : Graph where
  modules := [⟨"shapes.ts", false, [⟨"Shape"⟩, ⟨"Circle"⟩, ⟨"Circle, continued"⟩]⟩]
  declarations := .ofEntries [
    (⟨"Shape"⟩, { Declaration.blank with kind := .interface, symbol := some ⟨"Shape"⟩ }),
    (⟨"Circle"⟩, { Declaration.blank with kind := .interface, symbol := some ⟨"Circle"⟩ }),
    (⟨"Circle, continued"⟩, { Declaration.blank with
      kind := .interface, symbol := some ⟨"Circle"⟩ })]
  symbols := .ofEntries [
    (⟨"Shape"⟩, { Symbol.blank with
      name := "Shape", qualifiedName := "\"shapes\".Shape", type := some ⟨"Shape"⟩ }),
    (⟨"Circle"⟩, { Symbol.blank with
      name := "Circle", qualifiedName := "\"shapes\".Circle", type := some ⟨"Circle"⟩ })]
  types := .ofEntries [
    (⟨"Shape"⟩, ⟨"\"shapes\".Shape", some ⟨"Shape"⟩, .object .blank⟩),
    (⟨"Circle"⟩, ⟨"\"shapes\".Circle", some ⟨"Circle"⟩,
      .object { ObjectType.blank with baseTypes := [⟨"Shape"⟩] }⟩)]
  diagnostics := []
  strictNullChecks := false

theorem circle_collected :
    ∃ table, (collect circleGraph).1 = .ok table ∧ table.heirs "Shape" = ["Circle", "Circle"] := by
  obtain ⟨table, htable, hcheck⟩ : ∃ table, (collect circleGraph).1 = .ok table ∧
      decide (table.heirs "Shape" = ["Circle", "Circle"]) = true :=
    exists_table (by decide +kernel)
  exact ⟨table, htable, of_decide_eq_true hcheck⟩

theorem heirs_agree_iff_circle :
    ∃ table, (collect circleGraph).1 = .ok table ∧
      table.heirs "Shape" = heirsOf circleGraph "Shape" (declared circleGraph) ∧
      (HeirsAgree circleGraph table "Shape" ↔ ExtendedOnce circleGraph "Shape") := by
  obtain ⟨table, htable, -⟩ := circle_collected
  exact ⟨table, htable, heirs_agree_iff htable "Shape"⟩

/-- The heirs of a base may be listed more than once. -/
theorem heirs_may_disagree :
    ¬ ∀ (g : Graph) (table : SymbolTable) (base : String), (collect g).1 = .ok table →
      HeirsAgree g table base := by
  intro hclaim
  obtain ⟨table, htable, hheirs⟩ := circle_collected
  have hnodup := (hclaim circleGraph table "Shape" htable).nodup
  rw [hheirs] at hnodup
  exact absurd hnodup (by decide)

end TypeSchema.SymbolTable
