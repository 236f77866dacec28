import TypeSchema.Proofs.References.Resolution
import TypeSchema.Proofs.Schema.Titles
import TypeSchema.Proofs.Validation.Shapes

/-!
# Titles in the document of all types

The entries of the document of all types come from two sides: types that were referred to are
registered, and a registered definition bears its name as its title; all other user types are
inlined, and nothing but an annotation gives them a title.  So it depends on the references in the
program which of the entries have titles.
-/

namespace TypeSchema

namespace Document

open Schema

/-! ## Where entries come from -/

/-- The entry of a name is that of the type which the name was reserved for, or else that of the
user type with this name.  The remarks are those on the type in its place. -/
inductive EntryOf (env : Environment) (p : Progress) (name : String) : TypeId → Remarks → Prop where
  | registered {type ctx node remarks} (hreserved : .reserved name type ctx ∈ p.history)
      (hnode : env.graph.typeNode type = .ok node)
      (hremarks : Remarks.of env node ctx = .ok remarks) : EntryOf env p name type remarks
  | inlined {type node remarks} (free : name ∉ p.registry.keys)
      (huser : env.table.user.find? name = some type) (hnode : env.graph.typeNode type = .ok node)
      (hremarks : Remarks.of env node (Context.standing false) = .ok remarks) :
      EntryOf env p name type remarks

variable {env : Environment} {p : Progress} {d : Definition} {made : List Described}
  {name : String} {value : Json} {type : TypeId} {ctx : Context} {node : TypeNode}
  {remarks : Remarks}

theorem traced_of_describes (hmade : Describes (define env) .initial made p) : Traced env p :=
  hmade.relates (R := fun p p' => Traced env p → Traced env p') (fun quiet hp => hp.quiet quiet)
    (fun h h' hp => h' (h hp)) (fun hrun hp => hp.steps (typeDefinition_steps hrun)) traced_initial

theorem registered_iff_referred (h : (forAllTypes env).on .initial = (.ok d, p)) (name : String) :
    name ∈ p.registry.keys ↔ IsReferred p name := by
  obtain ⟨made, entries, hmade, -, -⟩ := forAllTypes_ok h
  have hrefers : RefersStored p :=
    hmade.refersStored typeDefinition_refersStored fun _ _ h => absurd h List.not_mem_nil
  exact hrefers.mem_keys_iff (traced_of_describes hmade) (hmade.settles typeDefinition_settles)

/-- At the end there is a definition under every name that was reserved, and its title is known. -/
theorem registered_title (hmade : Describes (define env) .initial made p)
    (hreserved : .reserved name type ctx ∈ p.history) :
    ∃ entry, p.registry.find? name = some entry ∧ TitleStored env p name type ctx entry := by
  have hstores : Stores (TitleStored env) p :=
    hmade.stores ⟨fun _ hd => hd⟩ typeDefinition_storesTitles .initial
  have hsettles : Settles .initial p := hmade.settles typeDefinition_settles
  exact hstores.of_reserved (traced_of_describes hmade) hsettles hreserved

/-- In a place of its own the remarks on a type are those on its symbol. -/
theorem remarks_alone {asRef : Bool}
    (h : Remarks.of env node (Context.standing asRef) = .ok remarks) :
    remarks.isNullable = remarks.own.isNullable ∧ remarks.onType true = remarks.onType false := by
  simp only [Remarks.of, outcome_bind_eq_ok] at h
  obtain ⟨reffed, hreffed, property, hproperty, own, -, hpure⟩ := h
  cases hreffed
  cases hproperty
  cases hpure
  exact ⟨rfl, rfl⟩

theorem standing_title (hmade : Describes (define env) .initial made p) {m : Described}
    (hm : m ∈ made) (hctx : m.ctx = Context.standing false) :
    ∃ node remarks, env.graph.typeNode m.type = .ok node ∧
      Remarks.of env node (Context.standing false) = .ok remarks ∧
      (LeavesTitle env m.type ∨ remarks.own.isNullable = true ∨
        m.definition.find? "title" = (remarks.onType false).find? "title") := by
  obtain ⟨p, p', hrun⟩ := hmade.exists_run hm
  rw [hctx] at hrun
  obtain ⟨node, remarks, hnode, hremarks, htitle⟩ := inlined_title hrun fun name hname =>
    absurd (asRef_of_referenceOf hname) Bool.false_ne_true
  obtain ⟨hnullable, honType⟩ := remarks_alone hremarks
  rw [hnullable, honType] at htitle
  exact ⟨node, remarks, hnode, hremarks, htitle⟩

theorem exists_entryOf (h : (forAllTypes env).on .initial = (.ok d, p))
    (hentry : (name, value) ∈ d.definitions) : ∃ type remarks, EntryOf env p name type remarks := by
  obtain ⟨made, entries, hmade, hinlines, rfl⟩ := forAllTypes_ok h
  rw [Definition.definitions_insert_self] at hentry
  rcases hinlines.find? (Dict.mem_entries_iff.1 hentry) with
    ⟨entry, hfind, -⟩ | ⟨free, m, hm, huser, hctx, -⟩
  · obtain ⟨type, ctx, hreserved⟩ := ((traced_of_describes hmade).registered name).1
      (Dict.mem_keys_iff.2 ⟨entry, hfind⟩)
    obtain ⟨_, -, node, remarks, hnode, hremarks, -⟩ := registered_title hmade hreserved
    exact ⟨type, remarks, .registered hreserved hnode hremarks⟩
  · obtain ⟨node, remarks, hnode, hremarks, -⟩ := standing_title hmade hm hctx
    exact ⟨m.type, remarks, .inlined free (Dict.mem_entries_iff.1 huser) hnode hremarks⟩

/-! ## Titles of entries -/

theorem entry_title (h : (forAllTypes env).on .initial = (.ok d, p))
    (hentry : (name, value) ∈ d.definitions) (horigin : EntryOf env p name type remarks)
    (hleft : ¬ LeavesTitle env type) (hnull : remarks.own.isNullable = false) :
    value.field? "title" = if name ∈ p.registry.keys then
        (titled env.settings name (remarks.onType false)).find? "title"
      else (remarks.onType false).find? "title" := by
  obtain ⟨made, entries, hmade, hinlines, rfl⟩ := forAllTypes_ok h
  rw [Definition.definitions_insert_self] at hentry
  have hfind := hinlines.find? (Dict.mem_entries_iff.1 hentry)
  cases horigin with
  | registered hreserved hnode hremarks =>
      obtain ⟨entry, hstored, node', remarks', hnode', hremarks', htitle⟩ :=
        registered_title hmade hreserved
      cases hnode.symm.trans hnode'
      cases hremarks.symm.trans hremarks'
      have hkeys : name ∈ p.registry.keys := Dict.mem_keys_iff.2 ⟨entry, hstored⟩
      obtain ⟨entry', hfound, rfl⟩ := hfind.resolve_right fun hfree => hfree.1 hkeys
      cases hstored.symm.trans hfound
      rw [if_pos hkeys]
      exact htitle.resolve_left hleft
  | inlined free huser hnode hremarks =>
      obtain ⟨m, hm, hmtype, hctx, rfl⟩ : ∃ m ∈ made, (name, m.type) ∈ env.table.user.entries ∧
          m.ctx = Context.standing false ∧ value = m.definition.toJson := by
        rcases hfind with ⟨entry, hfound, -⟩ | ⟨-, hmade⟩
        · exact absurd (Dict.mem_keys_iff.2 ⟨entry, hfound⟩) free
        · exact hmade
      obtain ⟨node', remarks', hnode', hremarks', htitle⟩ := standing_title hmade hm hctx
      cases huser.symm.trans (Dict.mem_entries_iff.1 hmtype)
      cases hnode.symm.trans hnode'
      cases hremarks.symm.trans hremarks'
      rw [if_neg free]
      rcases htitle with hleft' | hnull' | hsame
      · exact absurd hleft' hleft
      · rw [hnull] at hnull'
        cases hnull'
      · exact hsame

theorem find?_titled (huse : env.settings.useTitle = true) (name : String) (d : Definition) :
    (titled env.settings name d).find? "title" =
      if name = "" then d.find? "title" else some (.str name) := by
  rw [titled, Definition.find?_insertIf_self, huse, Bool.true_and]
  by_cases hname : name = "" <;> simp [hname]

theorem entry_titled_iff (huse : env.settings.useTitle = true)
    (h : (forAllTypes env).on .initial = (.ok d, p)) (hentry : (name, value) ∈ d.definitions)
    (horigin : EntryOf env p name type remarks) (hleft : ¬ LeavesTitle env type)
    (hnull : remarks.own.isNullable = false) :
    value.field? "title" = some (.str name) ↔
      IsReferred p name ∧ name ≠ "" ∨
        (remarks.onType false).find? "title" = some (.str name) := by
  rw [entry_title h hentry horigin hleft hnull, find?_titled huse, ← registered_iff_referred h]
  by_cases hkeys : name ∈ p.registry.keys
  · by_cases hname : name = "" <;> simp [hkeys, hname]
  · simp [hkeys]

/-- In the document of all types just those entries have their name as the title that were referred
to by it, or whose type is annotated with it.  An empty name is not made a title.  Left aside are
types that admit null by annotation, and unions that come down to a member with a title. -/
theorem generate_titled_iff {g : Graph} {settings : Settings} {table : SymbolTable}
    {notices : List Notice} (htable : (SymbolTable.collect g).1 = .ok table)
    (huse : settings.useTitle = true)
    (h : generate g allTypes settings = (.ok (some d), notices)) :
    ∃ p, (forAllTypes (environment g settings table)).on .initial = (.ok d, p) ∧
      ∀ name value, (name, value) ∈ d.definitions →
        (∃ type remarks, EntryOf (environment g settings table) p name type remarks) ∧
        ∀ type remarks, EntryOf (environment g settings table) p name type remarks →
          ¬ LeavesTitle (environment g settings table) type → remarks.own.isNullable = false →
          (value.field? "title" = some (.str name) ↔
            IsReferred p name ∧ name ≠ "" ∨
              (remarks.onType false).find? "title" = some (.str name)) := by
  obtain ⟨p, hrun⟩ := generate_ok htable h
  rw [forTarget, if_pos rfl] at hrun
  refine ⟨p, hrun, fun name value hentry => ⟨exists_entryOf hrun hentry, ?_⟩⟩
  intro type remarks horigin hleft hnull
  exact entry_titled_iff huse hrun hentry horigin hleft hnull

/-! ## Programs without annotations -/

theorem not_leavesTitle_of_plain (hplain : IsPlain env.graph) : ¬ LeavesTitle env type := by
  rintro ⟨member, -, hmember⟩
  induction hmember with
  | annotated _ _ hremarks htitle =>
      rw [remarks_plain hplain hremarks] at htitle
      cases htitle
  | left _ _ _ ih => exact ih

theorem EntryOf.remarks_eq (hplain : IsPlain env.graph) (h : EntryOf env p name type remarks) :
    remarks = ⟨.empty, .empty, .empty⟩ := by
  cases h with
  | registered _ _ hremarks | inlined _ _ _ hremarks => exact remarks_plain hplain hremarks

/-- Without annotations there is no other title than the name by which a type was referred to. -/
theorem plain_entry_titled_iff (hplain : IsPlain env.graph) (huse : env.settings.useTitle = true)
    (h : (forAllTypes env).on .initial = (.ok d, p)) (hentry : (name, value) ∈ d.definitions) :
    value.field? "title" = some (.str name) ↔ IsReferred p name ∧ name ≠ "" := by
  obtain ⟨type, remarks, horigin⟩ := exists_entryOf h hentry
  have hremarks := horigin.remarks_eq hplain
  have hnull : remarks.own.isNullable = false := by
    rw [hremarks]
    rfl
  rw [entry_titled_iff huse h hentry horigin (not_leavesTitle_of_plain hplain) hnull, hremarks]
  exact or_iff_left (by rintro ⟨⟩)

/-- A parcel with a sender, who is a person. -/
def parcelGraph : Graph where
  modules := [⟨"parcel.ts", false, [⟨"Parcel"⟩, ⟨"Person"⟩]⟩]
  declarations := .ofEntries [
    (⟨"Parcel"⟩, { Declaration.blank with kind := .interface, symbol := some ⟨"Parcel"⟩ }),
    (⟨"Person"⟩, { Declaration.blank with kind := .interface, symbol := some ⟨"Person"⟩ })]
  symbols := .ofEntries [
    (⟨"Parcel"⟩, { Symbol.blank with
      name := "Parcel", qualifiedName := "Parcel", type := some ⟨"Parcel"⟩,
      declarations := [⟨"Parcel"⟩] }),
    (⟨"sender"⟩, { Symbol.blank with name := "sender", type := some ⟨"Person"⟩ }),
    (⟨"Person"⟩, { Symbol.blank with
      name := "Person", qualifiedName := "Person", type := some ⟨"Person"⟩,
      declarations := [⟨"Person"⟩] }),
    (⟨"name"⟩, { Symbol.blank with name := "name", type := some ⟨"string"⟩ })]
  types := .ofEntries [
    (⟨"string"⟩, ⟨"string", none, .string⟩),
    (⟨"Parcel"⟩, ⟨"Parcel", some ⟨"Parcel"⟩,
      .object { ObjectType.blank with properties := [⟨"sender"⟩] }⟩),
    (⟨"Person"⟩, ⟨"Person", some ⟨"Person"⟩,
      .object { ObjectType.blank with properties := [⟨"name"⟩] }⟩)]
  diagnostics := []
  strictNullChecks := false

def parcelTable : SymbolTable where
  all := .ofEntries [("Parcel", ⟨"Parcel"⟩), ("Person", ⟨"Person"⟩)]
  user := .ofEntries [("Parcel", ⟨"Parcel"⟩), ("Person", ⟨"Person"⟩)]
  inheriting := ∅

def titling : Settings := { Settings.default with useTitle := true }

/-- Parcels refer to persons, and nothing refers to parcels. -/
theorem generate_titled_iff_parcel :
    ∃ d notices, generate parcelGraph allTypes titling = (.ok (some d), notices) ∧
      d.definitions.keys = ["Parcel", "Person"] ∧
      ∀ name value, (name, value) ∈ d.definitions →
        (value.field? "title" = some (.str name) ↔ name = "Person") := by
  obtain ⟨d, notices, h, hkeys⟩ : ∃ d notices,
      generate parcelGraph allTypes titling = (.ok (some d), notices) ∧
        decide (d.definitions.keys = ["Parcel", "Person"]) = true :=
    exists_document (by decide +kernel)
  have htable : (SymbolTable.collect parcelGraph).1 = .ok parcelTable := rfl
  obtain ⟨p, hrun, hentries⟩ := generate_titled_iff htable rfl h
  have hplain : IsPlain parcelGraph := by decide +kernel
  have hregistry : p.registry.keys = ["Person"] := by
    rw [show p = ((forAllTypes (environment parcelGraph titling parcelTable)).on .initial).2 from
      congrArg Prod.snd hrun.symm]
    decide +kernel
  have hreferred : ∀ name, IsReferred p name ↔ name = "Person" := fun name => by
    rw [← registered_iff_referred hrun, hregistry, List.mem_singleton]
  refine ⟨d, notices, h, of_decide_eq_true hkeys, fun name value hentry => ?_⟩
  obtain ⟨⟨type, remarks, horigin⟩, htitled⟩ := hentries name value hentry
  have hremarks := horigin.remarks_eq hplain
  have hnull : remarks.own.isNullable = false := by
    rw [hremarks]
    rfl
  have hiff := htitled type remarks horigin (not_leavesTitle_of_plain hplain) hnull
  rw [hiff, hremarks, hreferred]
  constructor
  · rintro (⟨hname, -⟩ | htitle)
    · exact hname
    · cases htitle
  · rintro rfl
    exact .inl ⟨rfl, by decide⟩

/-- A type that nothing refers to has no title, though nothing admits null. -/
theorem entry_may_lack_title :
    ¬ ∀ (g : Graph) (settings : Settings) (d : Definition) (notices : List Notice) (name : String)
      (value : Json), settings.useTitle = true → settings.useRef = true →
      generate g allTypes settings = (.ok (some d), notices) → (name, value) ∈ d.definitions →
      (∀ symbol ∈ g.symbols.values,
        (Annotations.ofSymbol settings.validationKeywords symbol).isNullable = false) →
      value.field? "title" = some (.str name) := by
  intro hall
  obtain ⟨d, notices, h, hcheck⟩ : ∃ d notices,
      generate parcelGraph allTypes titling = (.ok (some d), notices) ∧
        (Entries.find? "Parcel" d.definitions).any (fun parcel =>
          (parcel.field? "title").isNone) = true :=
    exists_document (by decide +kernel)
  obtain ⟨parcel, hparcel, hnone⟩ := (Option.any_eq_true _ _).1 hcheck
  have htitle := hall parcelGraph titling d notices "Parcel" parcel rfl rfl h
    (Entries.mem_of_find?_eq_some hparcel) (by decide +kernel)
  rw [htitle] at hnone
  cases hnone

end Document

end TypeSchema
