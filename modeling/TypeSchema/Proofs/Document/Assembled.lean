import TypeSchema.Document
import TypeSchema.Proofs.Definition.Keywords
import TypeSchema.Proofs.Schema.TypeDescribed

/-!
# How documents are assembled

The document of one type is the definition of the type, with the registry attached; the document of
all types holds the definition of each and the registry beside them.
-/

namespace TypeSchema.Document

open Schema

variable {env : Environment} {p p' : Progress} {d : Definition}

def attached (settings : Settings) (registry : Dict String Definition) (root : Definition) :
    Definition :=
  root.insertIf (settings.useRef && !registry.isEmpty) "definitions"
    (.ofDict (registryJson registry))

theorem forType_ok {name : String} (h : (forType env name).on p = (.ok d, p')) :
    ∃ type root, env.table.all.find? name = some type ∧
      (define env type (Context.standing env.settings.useRootRef)).on p = (.ok root, p') ∧
      d = (attached env.settings p'.registry root).insert "$schema" (.str Definition.draft04) := by
  unfold forType at h
  split at h
  · cases h
  · rename_i type htype
    simp only [Run.on_bind_eq_ok] at h
    obtain ⟨root, p₁, hroot, _, _, hget, hpure⟩ := h
    cases hget
    cases hpure
    exact ⟨type, root, htype, hroot, rfl⟩

/-- The definitions made of types that stand at the top, and the entries made of them. -/
structure Inlines (types : Entries String TypeId) (made : List Described)
    (entries : Entries String Json) : Prop where
  places : ∀ m ∈ made, (∃ name, (name, m.type) ∈ types) ∧ m.ctx = Context.standing false
  entries : ∀ entry ∈ entries, ∃ m ∈ made, (entry.1, m.type) ∈ types ∧
    entry.2 = m.definition.toJson

theorem inlined_ok {types : Entries String TypeId} {entries : Entries String Json}
    (h : (inlined env types).on p = (.ok entries, p')) :
    ∃ made, Describes (define env) p made p' ∧ Inlines types made entries := by
  unfold inlined at h
  induction types generalizing p entries with
  | nil =>
      cases h
      exact ⟨[], .nil (.refl _), fun m hm => absurd hm List.not_mem_nil,
        fun entry hentry => absurd hentry List.not_mem_nil⟩
  | cons first rest ih =>
      simp only [Describing.forEach, Run.on_bind_eq_ok] at h
      obtain ⟨entry, p₁, ⟨d, p₂, hd, hentry⟩, entries', p₃, hrest, hpure⟩ := h
      cases hentry
      cases hpure
      obtain ⟨made, hmade, hplaces, hentries⟩ := ih hrest
      refine ⟨_, .cons (.refl p) hd hmade, List.forall_mem_cons.2 ⟨⟨⟨first.1, ?_⟩, rfl⟩, ?_⟩,
        List.forall_mem_cons.2 ⟨⟨_, List.mem_cons_self, List.mem_cons_self, rfl⟩, ?_⟩⟩
      · exact List.mem_cons_self
      · intro m hm
        obtain ⟨⟨name, hname⟩, hctx⟩ := hplaces m hm
        exact ⟨⟨name, List.mem_cons_of_mem _ hname⟩, hctx⟩
      · intro entry hentry
        obtain ⟨m, hm, htype, heq⟩ := hentries entry hentry
        exact ⟨m, List.mem_cons_of_mem _ hm, List.mem_cons_of_mem _ htype, heq⟩

theorem forAllTypes_ok (h : (forAllTypes env).on p = (.ok d, p')) :
    ∃ made entries, Describes (define env) p made p' ∧ Inlines env.table.user.entries made entries ∧
      d = ((Dict.empty : Definition).insert "$schema" (.str Definition.draft04)).insert
        "definitions" (.ofDict ((Dict.ofEntries entries).merge (registryJson p'.registry))) := by
  simp only [forAllTypes, Run.on_bind_eq_ok] at h
  obtain ⟨entries, p₁, hentries, _, _, hget, hpure⟩ := h
  cases hget
  cases hpure
  obtain ⟨made, hmade, hinlines⟩ := inlined_ok hentries
  exact ⟨made, entries, hmade, hinlines, rfl⟩

/-- Under a name of the document of all types stands what is registered under it, or else what was
made of the type with this name. -/
theorem Inlines.find? {types : Entries String TypeId} {made : List Described}
    {entries : Entries String Json} {registry : Dict String Definition} {name : String}
    {value : Json} (h : Inlines types made entries)
    (hvalue : ((Dict.ofEntries entries).merge (registryJson registry)).find? name = some value) :
    (∃ entry, registry.find? name = some entry ∧ value = entry.toJson) ∨
      name ∉ registry.keys ∧ ∃ m ∈ made, (name, m.type) ∈ types ∧
        m.ctx = Context.standing false ∧ value = m.definition.toJson := by
  rw [Dict.find?_merge, registryJson, Dict.find?_mapValues] at hvalue
  cases hentry : registry.find? name with
  | some entry =>
      rw [hentry] at hvalue
      exact .inl ⟨entry, rfl, (Option.some.inj hvalue).symm⟩
  | none =>
      rw [hentry] at hvalue
      refine .inr ⟨Entries.find?_eq_none_iff.1 hentry, ?_⟩
      rcases Entries.mem_of_mem_merge (Entries.mem_of_find?_eq_some hvalue) with hnone | hmem
      · exact absurd hnone List.not_mem_nil
      · obtain ⟨m, hm, htype, heq⟩ := h.entries _ hmem
        exact ⟨m, hm, htype, (h.places m hm).2, heq⟩

theorem table_of_document {g : Graph} {target : String} {settings : Settings}
    {notices : List Notice} (h : generate g target settings = (.ok (some d), notices)) :
    ∃ table, (SymbolTable.collect g).1 = .ok table := by
  unfold generate at h
  dsimp only at h
  split at h
  · cases h
  · split at h
    · cases h
    · rename_i table _ hcollect
      exact ⟨table, congrArg Prod.fst hcollect⟩

theorem generate_ok {g : Graph} {target : String} {settings : Settings} {table : SymbolTable}
    {notices : List Notice} (htable : (SymbolTable.collect g).1 = .ok table)
    (h : generate g target settings = (.ok (some d), notices)) :
    ∃ p, (forTarget (environment g settings table) target).on .initial = (.ok d, p) := by
  unfold generate at h
  dsimp only at h
  split at h
  · cases h
  · split at h
    · cases h
    · rename_i table' collected hcollect
      rw [hcollect] at htable
      cases htable
      unfold outcome at h
      cases hrun : (forTarget (environment g settings table) target).on .initial with
      | mk result p =>
          rw [hrun] at h
          cases result with
          | error failure => cases h
          | ok d' =>
              cases h
              exact ⟨p, rfl⟩

theorem exists_document {g : Graph} {target : String} {settings : Settings}
    {check : Definition → Bool}
    (h : (generate g target settings).1.toOption.join.any check = true) :
    ∃ d notices, generate g target settings = (.ok (some d), notices) ∧ check d = true := by
  generalize generate g target settings = outcome at h
  obtain ⟨failure | none | d, notices⟩ := outcome
  · cases h
  · cases h
  · exact ⟨d, notices, rfl, h⟩

/-! ## Definitions of documents -/

@[simp] theorem keys_registryJson (registry : Dict String Definition) :
    (registryJson registry).keys = registry.keys :=
  Dict.keys_mapValues _ _

theorem mem_keys_merge_registry {definitions : Dict String Json}
    {registry : Dict String Definition} {name : String} (h : name ∈ registry.keys) :
    name ∈ (definitions.merge (registryJson registry)).keys := by
  rw [Dict.mem_keys_iff, Dict.find?_merge]
  rw [← keys_registryJson, Dict.mem_keys_iff] at h
  obtain ⟨value, hvalue⟩ := h
  exact ⟨value, by rw [hvalue]; rfl⟩

end TypeSchema.Document
