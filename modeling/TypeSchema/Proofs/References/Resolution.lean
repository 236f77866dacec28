import TypeSchema.Proofs.Document.Assembled
import TypeSchema.Proofs.References.Within
import TypeSchema.Proofs.Schema.Guarantee

/-!
# References resolve

Every reference in a schema position leads to a name that is registered, as long as annotations
bring in no references of their own.  The document of all types has an entry for each of these
names.  The document of one type has them too if nested types are referred to; if they are inlined,
but the requested type itself is referred to, the reference to it has nowhere to lead.
-/

namespace TypeSchema

namespace Schema

structure AnnotatesNoReference (env : Environment) : Prop where
  keyword : "$ref" ∉ env.settings.validationKeywords
  values : ∀ symbol ∈ env.graph.symbols.values,
    Annotations.LacksReference env.settings.validationKeywords symbol

variable {env : Environment} {roots : TypeId → Context → Prop} {names : List String}
  {node : TypeNode} {type : TypeId} {ctx : Context} {remarks : Remarks} {d : Definition}

theorem remarks_lacksText (henv : AnnotatesNoReference env)
    (h : Remarks.of env node ctx = .ok remarks) :
    (Json.ofDict remarks.reffed.keywords).lacksText "$ref" = true ∧
      (Json.ofDict remarks.property.keywords).lacksText "$ref" = true ∧
      (Json.ofDict remarks.own.keywords).lacksText "$ref" = true :=
  remarks_induction (P := fun notes => (Json.ofDict notes.keywords).lacksText "$ref" = true) rfl
    (fun symbol hmem => Annotations.ofSymbol_lacksText henv.keyword (henv.values symbol hmem)) h

theorem onType_within (henv : AnnotatesNoReference env)
    (h : Remarks.of env node ctx = .ok remarks) (inlined : Bool) :
    (remarks.onType inlined).RefersWithin names := by
  obtain ⟨hreffed, hproperty, hown⟩ := remarks_lacksText henv h
  have hwritten : (remarks.reffed.applyTo Dict.empty).RefersWithin names :=
    Definition.refersWithin_empty.applyTo hreffed
  cases inlined with
  | false => exact hwritten.applyTo hown
  | true => exact (hwritten.applyTo hproperty).applyTo hown

theorem widen_within (remarks : Remarks) (h : d.RefersWithin names) :
    (remarks.widen d).RefersWithin names := by
  unfold Remarks.widen
  split
  · exact h.makeNullable
  · exact h

theorem titled_within (settings : Settings) (name : String) (h : d.RefersWithin names) :
    (titled settings name d).RefersWithin names :=
  h.insertIf _ (Json.fieldWithin_plain rfl _)

theorem within_guarantee (henv : AnnotatesNoReference env) :
    Guarantee env roots (fun names m => m.definition.RefersWithin names)
      (fun names _ _ d => d.RefersWithin names) where
  given_mono hsub h := h.mono hsub
  stored_mono hsub h := h.mono hsub
  reserved _ _ _ := Definition.refersWithin_empty
  inlined _ _ hremarks _ hmade hd :=
    widen_within _ (completed_within hd hmade (onType_within henv hremarks true))
  referred _ _ hremarks _ hmem :=
    widen_within _ ((Definition.refersWithin_reference.2 hmem).applyTo
      (remarks_lacksText henv hremarks).2.1)
  filled _ _ hremarks _ hmade hd :=
    completed_within hd hmade (titled_within _ _ (onType_within henv hremarks false))

/-! ## Names of references -/

theorem asRef_of_referenceOf {name : String} (h : referenceOf env type ctx = .ok (some name)) :
    ctx.asRef = true := by
  simp only [referenceOf, outcome_bind_eq_ok] at h
  obtain ⟨node, -, symbol, -, hname⟩ := h
  unfold referenceName at hname
  split at hname
  · rename_i halias
    simp only [usesAlias, Bool.and_eq_true] at halias
    exact halias.1.1
  · split at hname
    · rename_i hnamed
      rw [Bool.and_eq_true] at hnamed
      exact hnamed.1
    · cases hname

/-- Nothing is registered if nested types are inlined and what stands at the top has no name. -/
theorem Kept.registry_empty {stored : List String → TypeId → Context → Definition → Prop}
    {p : Progress} (h : Kept env roots stored p) (hnested : env.settings.useRef = false)
    (hroots : ∀ type ctx, roots type ctx → referenceOf env type ctx = .ok none) :
    p.registry.keys = [] := by
  refine List.eq_nil_iff_forall_not_mem.2 fun name hname => ?_
  obtain ⟨d, hd⟩ := Dict.mem_keys_iff.1 hname
  obtain ⟨type, ctx, hplace, href, -⟩ := h name d hd
  cases hplace with
  | root hroot =>
      rw [hroots type ctx hroot] at href
      cases href
  | inside hinside =>
      have hasRef := asRef_of_referenceOf href
      rw [hinside.asRef, hnested] at hasRef
      cases hasRef

end Schema

namespace Document

open Schema

variable {env : Environment} {p : Progress} {d : Definition}

theorem registry_within {roots : TypeId → Context → Prop}
    (hp : Kept env roots (fun names _ _ d => d.RefersWithin names) p) :
    ∀ field ∈ (registryJson p.registry).entries, field.2.RefersWithin p.registry.keys := by
  rintro ⟨name, value⟩ hfield
  obtain ⟨d, hd, rfl⟩ : ∃ d, p.registry.find? name = some d ∧ d.toJson = value := by
    rw [Dict.mem_entries_iff, registryJson, Dict.find?_mapValues, Option.map_eq_some_iff] at hfield
    exact hfield
  obtain ⟨_, _, -, -, hd⟩ := hp name d hd
  exact hd

theorem resolves_of_attached {all : Dict String Json} (hd : d.RefersWithin all.keys)
    (hall : ∀ field ∈ all.entries, field.2.RefersWithin all.keys) :
    Definition.RefersWithin all.keys (d.insert "definitions" (.ofDict all)) :=
  hd.insert (Json.fieldWithin_named List.mem_cons_self hall)

/-- References in the document of all types lead to registered names, and all of these are there. -/
theorem forAllTypes_within (henv : AnnotatesNoReference env)
    (h : (forAllTypes env).on .initial = (.ok d, p)) :
    d.RefersWithin p.registry.keys ∧ p.registry.keys ⊆ d.definitions.keys := by
  obtain ⟨made, entries, hmade, hinlines, rfl⟩ := forAllTypes_ok h
  have guarantee : Guarantee env (fun _ ctx => ctx = Context.standing false) _ _ :=
    within_guarantee henv
  have hsecures := hmade.secures guarantee (guarantee.typeDefinition maxDepth)
    (fun m hm => .root (hinlines.places m hm).2) kept_initial
  constructor
  · have hschema : Definition.RefersWithin p.registry.keys
        (Dict.empty.insert "$schema" (.str Definition.draft04)) :=
      Definition.refersWithin_empty.plain rfl
    refine hschema.insert (Json.fieldWithin_named List.mem_cons_self fun field hfield => ?_)
    rcases Entries.mem_of_mem_merge hfield with hentry | hregistered
    · rcases Entries.mem_of_mem_merge hentry with hnone | hentry
      · exact absurd hnone List.not_mem_nil
      · obtain ⟨m, hm, -, heq⟩ := hinlines.entries field hentry
        rw [heq]
        exact hsecures.given m hm
    · exact registry_within hsecures.kept field hregistered
  · rw [Definition.definitions_insert_self]
    exact fun name hname => mem_keys_merge_registry hname

/-- Nodes of a list, each with a label and perhaps a next node. -/
def linkedGraph : Graph where
  modules := [⟨"list.ts", false, [⟨"Node"⟩, ⟨"Label"⟩]⟩]
  declarations := .ofEntries [
    (⟨"Node"⟩, { Declaration.blank with kind := .interface, symbol := some ⟨"Node"⟩ }),
    (⟨"Label"⟩, { Declaration.blank with kind := .interface, symbol := some ⟨"Label"⟩ })]
  symbols := .ofEntries [
    (⟨"Node"⟩, { Symbol.blank with
      name := "Node", qualifiedName := "Node", type := some ⟨"Node"⟩, declarations := [⟨"Node"⟩] }),
    (⟨"label"⟩, { Symbol.blank with name := "label", type := some ⟨"Label"⟩ }),
    (⟨"next"⟩, { Symbol.blank with name := "next", type := some ⟨"Node | undefined"⟩ }),
    (⟨"Label"⟩, { Symbol.blank with
      name := "Label", qualifiedName := "Label", type := some ⟨"Label"⟩,
      declarations := [⟨"Label"⟩] }),
    (⟨"text"⟩, { Symbol.blank with
      name := "text", type := some ⟨"string"⟩, documentation := ["@minLength 1"] })]
  types := .ofEntries [
    (⟨"string"⟩, ⟨"string", none, .string⟩),
    (⟨"undefined"⟩, ⟨"undefined", none, .undefined⟩),
    (⟨"Node"⟩, ⟨"Node", some ⟨"Node"⟩,
      .object { ObjectType.blank with properties := [⟨"label"⟩, ⟨"next"⟩] }⟩),
    (⟨"Label"⟩, ⟨"Label", some ⟨"Label"⟩,
      .object { ObjectType.blank with properties := [⟨"text"⟩] }⟩),
    (⟨"Node | undefined"⟩,
      ⟨"Node | undefined", none, .union [⟨"Node"⟩, ⟨"undefined"⟩]⟩)]
  diagnostics := []
  strictNullChecks := false

def linkedTable : SymbolTable where
  all := .ofEntries [("Node", ⟨"Node"⟩), ("Label", ⟨"Label"⟩)]
  user := .ofEntries [("Node", ⟨"Node"⟩), ("Label", ⟨"Label"⟩)]
  inheriting := ∅

/-- In the document of all types every reference leads to one of its definitions. -/
theorem forAllTypes_resolves (henv : AnnotatesNoReference env)
    (h : (forAllTypes env).on .initial = (.ok d, p)) :
    d.RefersWithin d.definitions.keys := by
  obtain ⟨hwithin, hregistered⟩ := forAllTypes_within henv h
  exact hwithin.mono hregistered

theorem forAllTypes_resolves_linked :
    ∃ d p, (forAllTypes (environment linkedGraph .default linkedTable)).on .initial = (.ok d, p) ∧
      d.RefersWithin d.definitions.keys := by
  obtain ⟨d, p, h, -⟩ : ∃ d p,
      (forAllTypes (environment linkedGraph .default linkedTable)).on .initial = (.ok d, p) ∧
      decide (d.definitions.keys = ["Node", "Label"]) = true := Run.exists_ok (by decide +kernel)
  exact ⟨d, p, h, forAllTypes_resolves ⟨by decide, by decide +kernel⟩ h⟩

def isRoot (env : Environment) (type : TypeId) (t : TypeId) (ctx : Context) : Prop :=
  t = type ∧ ctx = Context.standing env.settings.useRootRef

theorem forType_within (henv : AnnotatesNoReference env) {type : TypeId} {root : Definition}
    (h : (define env type (Context.standing env.settings.useRootRef)).on .initial = (.ok root, p)) :
    root.RefersWithin p.registry.keys ∧
      Kept env (isRoot env type) (fun names _ _ d => d.RefersWithin names) p := by
  have guarantee : Guarantee env (isRoot env type) _ _ := within_guarantee henv
  have hsecures := guarantee.typeDefinition maxDepth h (.root ⟨rfl, rfl⟩) kept_initial
  exact ⟨hsecures.given _ List.mem_cons_self, hsecures.kept⟩

theorem attached_resolves {roots : TypeId → Context → Prop} {root : Definition}
    (hroot : root.RefersWithin p.registry.keys)
    (hp : Kept env roots (fun names _ _ d => d.RefersWithin names) p)
    (hattached : env.settings.useRef = true ∨ p.registry.keys = []) :
    (attached env.settings p.registry root).RefersWithin
      (attached env.settings p.registry root).definitions.keys := by
  unfold attached Definition.insertIf
  split
  · have hnames : (registryJson p.registry).keys = p.registry.keys := keys_registryJson _
    have hall := registry_within hp
    rw [← hnames] at hroot hall
    rw [Definition.definitions_insert_self]
    exact resolves_of_attached hroot hall
  · rename_i hcondition
    have hempty : p.registry.keys = [] := by
      rcases hattached with huse | hempty
      · simpa [huse, ← Dict.keys_eq_nil_iff] using hcondition
      · exact hempty
    rw [hempty] at hroot
    exact hroot.mono (List.nil_subset _)

theorem not_resolves_reference {remarks : Remarks} (name : String) (schema : Json)
    (hproperty : remarks.property = .empty) :
    ¬ Definition.RefersWithin (remarks.widen (remarks.onReference name)).definitions.keys
      ((remarks.widen (remarks.onReference name)).insert "$schema" schema) := by
  have hreference : remarks.onReference name = Definition.reference name := by
    rw [Remarks.onReference, hproperty]
    rfl
  intro h
  rw [hreference] at h
  unfold Remarks.widen at h
  split at h
  · have hbranches : Json.FieldWithin [] "anyOf"
        (.arr [(Definition.reference name).toJson, Definition.nullBranch]) := h.field rfl
    have hbranch := hbranches.2 _ List.mem_cons_self
    exact List.not_mem_nil (Definition.refersWithin_reference.1 hbranch)
  · have hfield : Json.FieldWithin [] "$ref" (.str (Definition.definitionsPointer ++ name)) :=
      h.field rfl
    obtain ⟨_, hmem, -⟩ := hfield.1 rfl _ rfl
    exact List.not_mem_nil hmem

theorem inlined_of_resolves {type : TypeId} {root : Definition} {schema : Json}
    (hroot : (define env type (Context.standing env.settings.useRootRef)).on .initial =
      (.ok root, p))
    (h : Definition.RefersWithin root.definitions.keys (root.insert "$schema" schema)) :
    referenceOf env type (Context.standing env.settings.useRootRef) = .ok none := by
  obtain ⟨rest, -, hdescribed⟩ := typeDefinition_ok hroot
  cases hdescribed with
  | inlined _ _ hname => exact hname
  | known _ hremarks | new _ hremarks =>
      exact absurd h (not_resolves_reference _ _ (remarks_standing hremarks))

theorem registry_empty_of_inlined {type : TypeId}
    {stored : List String → TypeId → Context → Definition → Prop}
    (hp : Kept env (isRoot env type) stored p) (hnested : env.settings.useRef = false)
    (hname : referenceOf env type (Context.standing env.settings.useRootRef) = .ok none) :
    p.registry.keys = [] := by
  refine hp.registry_empty hnested ?_
  rintro _ _ ⟨rfl, rfl⟩
  exact hname

/-- In the document of one type every reference leads to one of its definitions if types that it
nests are referred to; if they are inlined, then just if the type itself is inlined too. -/
theorem forType_resolves_iff (henv : AnnotatesNoReference env) {name : String} {type : TypeId}
    (htype : env.table.all.find? name = some type)
    (h : (forType env name).on .initial = (.ok d, p)) :
    d.RefersWithin d.definitions.keys ↔ env.settings.useRef = true ∨
      referenceOf env type (Context.standing env.settings.useRootRef) = .ok none := by
  obtain ⟨type', root, htype', hroot, rfl⟩ := forType_ok h
  obtain rfl : type' = type := Option.some.inj (htype'.symm.trans htype)
  rw [((Definition.SameLinks.refl _).insert rfl _).definitions_eq]
  constructor
  · intro hd
    cases huse : env.settings.useRef with
    | true => exact .inl rfl
    | false =>
        -- Nothing is attached, so what resolves resolves within the root itself.
        have hattached : attached env.settings p.registry root = root := by
          simp [attached, Definition.insertIf, huse]
        rw [hattached] at hd
        exact .inr (inlined_of_resolves hroot hd)
  · intro hcondition
    obtain ⟨hwithin, hkept⟩ := forType_within henv hroot
    have hregistry : env.settings.useRef = true ∨ p.registry.keys = [] := by
      cases huse : env.settings.useRef with
      | true => exact .inl rfl
      | false =>
          have hname := hcondition.resolve_left (by simp [huse])
          exact .inr (registry_empty_of_inlined hkept huse hname)
    have hresolves := attached_resolves hwithin hkept hregistry
    exact hresolves.plain rfl

def refersToRoot : Settings := { Settings.default with useRootRef := true }

theorem forType_resolves_iff_linked :
    ∃ d p, (forType (environment linkedGraph refersToRoot linkedTable) "Node").on .initial =
        (.ok d, p) ∧
      (d.RefersWithin d.definitions.keys ↔ refersToRoot.useRef = true ∨
        referenceOf (environment linkedGraph refersToRoot linkedTable) ⟨"Node"⟩
          (Context.standing refersToRoot.useRootRef) = .ok none) := by
  obtain ⟨d, p, h, -⟩ : ∃ d p,
      (forType (environment linkedGraph refersToRoot linkedTable) "Node").on .initial =
        (.ok d, p) ∧
      decide (d.reference? = some "#/definitions/Node") = true := Run.exists_ok (by decide +kernel)
  exact ⟨d, p, h, forType_resolves_iff ⟨by decide, by decide +kernel⟩ rfl h⟩

def refersToRootOnly : Settings := { refersToRoot with useRef := false }

/-- The document of a type may refer to a definition that it does not have. -/
theorem reference_without_definitions :
    ¬ ∀ (env : Environment) (name : String) (d : Definition) (p : Progress),
      AnnotatesNoReference env → (forType env name).on .initial = (.ok d, p) →
        d.RefersWithin d.definitions.keys := by
  intro hall
  obtain ⟨d, p, h, hcheck⟩ : ∃ d p,
      (forType (environment linkedGraph refersToRootOnly linkedTable) "Label").on .initial =
        (.ok d, p) ∧
      decide (d.reference? = some "#/definitions/Label" ∧ d.definitions = []) = true :=
    Run.exists_ok (by decide +kernel)
  obtain ⟨href, hnone⟩ := of_decide_eq_true hcheck
  have hresolves := hall _ _ d p ⟨by decide, by decide +kernel⟩ h
  rw [hnone] at hresolves
  have hfield := hresolves.field (Definition.reference?_eq_some_iff.1 href)
  obtain ⟨_, hmem, -⟩ := hfield.1 rfl _ rfl
  exact List.not_mem_nil hmem

end Document

end TypeSchema
