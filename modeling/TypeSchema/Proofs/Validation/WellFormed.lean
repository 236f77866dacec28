import TypeSchema.Proofs.Validation.Formed

/-!
# Well-formed documents

The document of a program without annotations is well-formed, with the definitions that it brings
along, whatever it is a document of.  A property of the type undefined shows that there must be some
leeway.
-/

namespace TypeSchema.Document

open Schema

variable {env : Environment} {p : Progress} {d : Definition} {target : String}

/-! ## Documents -/

/-- What the documents of an environment are well-formed by: its program is plain, and its table is
the one that is collected. -/
structure Describable (env : Environment) : Prop where
  plain : IsPlain env.graph
  enums : ScalarEnums env.graph
  table : (SymbolTable.collect env.graph).1 = .ok env.table

theorem Describable.guarantee (h : Describable env) :
    Guarantee env IsStanding (fun _ m => Formed env m)
      (fun _ _ _ d => d.WellFormed (leewayOf env)) := by
  refine formed_guarantee h.plain h.enums fun node names hnames => ?_
  unfold subtypes at hnames
  dsimp only at hnames
  split at hnames
  · rename_i heirs hfind
    cases hnames
    exact SymbolTable.heirs_ne_nil h.table hfind
  · cases hnames

theorem Describable.alone (h : Describable env) {name : String} {type : TypeId}
    (hname : env.table.all.find? name = some type ∨ env.table.user.find? name = some type) :
    StandsAlone env type := by
  obtain ⟨symbol, hsymbol, htype⟩ := SymbolTable.namesSymbols h.table name type hname
  exact .ofSymbol hsymbol htype

theorem registry_formed {roots : TypeId → Context → Prop} {leeway : Leeway}
    (h : Kept env roots (fun _ _ _ d => d.WellFormed leeway) p) :
    ∀ field ∈ (registryJson p.registry).entries, field.2.WellFormed leeway := by
  intro field hfield
  obtain ⟨entry, hentry, rfl⟩ := List.mem_map.1 hfield
  obtain ⟨_, _, -, -, hformed⟩ := h entry.1 entry.2 (Dict.mem_entries_iff.1 hentry)
  exact hformed

theorem forType_formed (henv : Describable env)
    (h : (forType env target).on .initial = (.ok d, p)) : d.WellFormed (leewayOf env) := by
  obtain ⟨type, root, htype, hroot, rfl⟩ := forType_ok h
  have hsecures := henv.guarantee.typeDefinition maxDepth hroot (.root ⟨_, rfl⟩) kept_initial
  have hformed : root.WellFormed (leewayOf env) :=
    (hsecures.given _ List.mem_cons_self).alone (henv.alone (.inl htype))
  refine Definition.WellFormed.plain (hformed.insertIf fun _ => ?_) rfl (by decide)
  exact Json.fieldFormed_named (by decide) (registry_formed hsecures.kept)

theorem forAllTypes_formed (henv : Describable env)
    (h : (forAllTypes env).on .initial = (.ok d, p)) : d.WellFormed (leewayOf env) := by
  obtain ⟨made, entries, hmade, hinlines, rfl⟩ := forAllTypes_ok h
  have hsecures := hmade.secures henv.guarantee (henv.guarantee.typeDefinition maxDepth)
    (fun m hm => .root ⟨_, (hinlines.places m hm).2⟩) kept_initial
  refine Definition.WellFormed.insert (Definition.wellFormed_empty.plain rfl (by decide)) ?_
  refine Json.fieldFormed_named (by decide) fun field hfield => ?_
  rcases Entries.mem_of_mem_merge hfield with hentry | hregistered
  · rcases Entries.mem_of_mem_merge hentry with hnone | hentry
    · exact absurd hnone List.not_mem_nil
    · obtain ⟨m, hm, hname, heq⟩ := hinlines.entries field hentry
      rw [heq]
      exact (hsecures.given m hm).alone (henv.alone (.inr (Dict.mem_entries_iff.1 hname)))
  · exact registry_formed hsecures.kept field hregistered

/-- The document of a program without annotations, whose enums have scalar constants, is made of
keywords in the form of draft 04. -/
theorem generate_wellFormed {g : Graph} {settings : Settings} {table : SymbolTable}
    {notices : List Notice} (hplain : IsPlain g) (henums : ScalarEnums g)
    (htable : (SymbolTable.collect g).1 = .ok table)
    (h : generate g target settings = (.ok (some d), notices)) :
    d.toJson.WellFormed (leewayOf (environment g settings table)) := by
  obtain ⟨p, hp⟩ := generate_ok htable h
  have henv : Describable (environment g settings table) := ⟨hplain, henums, htable⟩
  unfold forTarget at hp
  split at hp
  · exact forAllTypes_formed henv hp
  · exact forType_formed henv hp

/-! ## A slot -/

/-- An interface `Slot` with a property of the type. -/
def slotGraph (type : TypeId) : Graph where
  modules := [⟨"a.ts", false, [⟨"Slot"⟩]⟩]
  declarations := .ofEntries [
    (⟨"Slot"⟩, { Declaration.blank with kind := .interface, symbol := some ⟨"Slot"⟩ })]
  symbols := .ofEntries [
    (⟨"Slot"⟩, { Symbol.blank with
      name := "Slot", qualifiedName := "Slot", type := some ⟨"Slot"⟩, declarations := [⟨"Slot"⟩] }),
    (⟨"value"⟩, { Symbol.blank with name := "value", type := some type })]
  types := .ofEntries [
    (⟨"number"⟩, ⟨"number", none, .number⟩),
    (⟨"undefined"⟩, ⟨"undefined", none, .undefined⟩),
    (⟨"number | undefined"⟩,
      ⟨"number | undefined", none, .union [⟨"number"⟩, ⟨"undefined"⟩]⟩),
    (⟨"Slot"⟩, ⟨"Slot", some ⟨"Slot"⟩,
      .object { ObjectType.blank with properties := [⟨"value"⟩] }⟩)]
  diagnostics := []
  strictNullChecks := false

def slotTable : SymbolTable where
  all := .ofEntries [("Slot", ⟨"Slot"⟩)]
  user := .ofEntries [("Slot", ⟨"Slot"⟩)]
  inheriting := ∅

def slotSettings : Settings := { Settings.default with generateRequired := true }

theorem generate_wellFormed_slot :
    ∃ d notices, generate (slotGraph ⟨"number"⟩) "Slot" slotSettings = (.ok (some d), notices) ∧
      d.toJson.WellFormed
        (leewayOf (environment (slotGraph ⟨"number"⟩) slotSettings slotTable)) := by
  obtain ⟨d, notices, h, -⟩ : ∃ d notices,
      generate (slotGraph ⟨"number"⟩) "Slot" slotSettings = (.ok (some d), notices) ∧
        d.contains "required" = true := exists_document (by decide +kernel)
  exact ⟨d, notices, h, generate_wellFormed (by decide +kernel)
    ⟨by decide +kernel, by decide +kernel⟩ rfl h⟩

/-- The type of the only property, if it is all that is said of it. -/
def valueType (d : Definition) : Option String :=
  match d.find? "properties" with
  | some (.obj [("value", .obj [("type", .str tag)])]) => some tag
  | _ => none

theorem schemaAt_value {tag : String} (h : valueType d = some tag) :
    Json.SchemaAt d.toJson (.obj [("type", .str tag)]) := by
  unfold valueType at h
  split at h
  · rename_i hproperties
    cases h
    exact .under (Dict.mem_entries_iff.2 hproperties) List.mem_cons_self (.whole _)
  · cases h

theorem not_isType_undefined : ¬ Json.IsType .none (.str "undefined") := by
  rintro (⟨tag, heq, hsimple | ⟨-, hnone⟩⟩ | ⟨tags, heq, -⟩)
  · cases heq
    exact absurd hsimple (by decide)
  · exact hnone
  · cases heq

/-- A property of the type undefined has a type that draft 04 does not know. -/
theorem types_may_be_undefined :
    ¬ ∀ (g : Graph) (target : String) (settings : Settings) (d : Definition)
        (notices : List Notice), IsPlain g → ScalarEnums g →
      generate g target settings = (.ok (some d), notices) → d.toJson.WellFormed .none := by
  intro hall
  obtain ⟨d, notices, h, hcheck⟩ : ∃ d notices,
      generate (slotGraph ⟨"undefined"⟩) "Slot" slotSettings = (.ok (some d), notices) ∧
        decide (valueType d = some "undefined") = true := exists_document (by decide +kernel)
  have hformed := hall _ _ _ d notices (by decide +kernel) ⟨by decide +kernel, by decide +kernel⟩ h
  have hvalue := schemaAt_value (of_decide_eq_true hcheck)
  exact not_isType_undefined (hformed _ hvalue _ List.mem_cons_self)

end TypeSchema.Document
