import TypeSchema.Proofs.Definition.Keywords
import TypeSchema.Proofs.Schema.Describes

/-!
# The description of one type

Every successful description of a type is an inlined definition, a reference to a name that is
taken, or a reference to a name that is taken by it.  The three cases of `TypeRun` say which
progress each of them leaves behind, and `describeType_run` shows that there are no others;
`TypeDescribed` has the descriptions made in place of the run that completes the definition.
-/

namespace TypeSchema.Schema

variable {env : Environment} {describe : Describe} {p p' : Progress} {type : TypeId}
  {node : TypeNode} {ctx : Context} {d d' : Definition}

/-! ## Shapes -/

def tupled (items : List Json) (d : Definition) : Definition :=
  (((d.setType "array").insert "minItems" (Json.nat items.length)).insert "items"
    (.arr items)).insert "additionalItems"
      (Definition.toJson (Dict.empty.insert "anyOf" (.arr items)))

def mapped (key : IndexKey) (value d : Definition) : Definition :=
  match key with
  | .string => (d.setType "object").insert "additionalProperties" value.toJson
  | .number => (d.setType "array").insert "items" value.toJson

/-- What a shape makes of a definition, given the descriptions made for it. -/
inductive Rendered (env : Environment) (node : TypeNode) (ctx : Context) (d : Definition) :
    Shape → List Described → Definition → Prop where
  | union {members made parts} (h : Sorts env .empty members made parts) :
      Rendered env node ctx d (.union members) made (parts.write ctx.unionKeyword d)
  | intersection {members made} (h : ofParts env members made) :
      Rendered env node ctx d (.intersection members) made
        (d.insert "allOf" (.arr (definitions made)))
  | tuple {elements made} (h : ofParts env elements made) :
      Rendered env node ctx d (.tuple elements) made (tupled (definitions made) d)
  | primitive (tag) : Rendered env node ctx d (.primitive tag) [] (d.setType tag)
  | literal (value) : Rendered env node ctx d (.literal value) [] (Definition.literal value d)
  | array (element) (items : Definition) :
      Rendered env node ctx d (.array element) [⟨element, Context.nested env.settings, items⟩]
        ((d.setType "array").insert "items" items.toJson)
  | date : Rendered env node ctx d .date []
      ((d.setType "string").insert "format" (.str "date-time"))
  | nonPrimitive : Rendered env node ctx d .nonPrimitive []
      (((d.setType "object").insert "properties" (.obj [])).insert "additionalProperties"
        (.bool true))
  | unconstrained : Rendered env node ctx d .unconstrained [] d
  | unsupported : Rendered env node ctx d .unsupported [] d
  | enum (declaration) : Rendered env node ctx d (.enum declaration) []
      (EnumDeclaration.describe declaration.enumMembers d)
  | emptyObject : Rendered env node ctx d .emptyObject []
      ((d.setType "object").insert "properties" (.obj []))
  | typeof (h : env.settings.useTypeOfKeyword = true) :
      Rendered env node ctx d .function [] (d.insert "typeof" (.str "function"))
  | function (h : env.settings.useTypeOfKeyword = false) :
      Rendered env node ctx d .function [] (ObjectParts.empty.write env.settings d)
  | map (key value) (items : Definition) :
      Rendered env node ctx d (.map key value)
        [⟨value, { Context.nested env.settings with unionKeyword := .anyOf }, items⟩]
        (mapped key items d)
  | abstract {names types made} (hnames : subtypes env node = .ok names)
      (htypes : names.map env.table.all.find? = types.map some) (h : ofParts env types made) :
      Rendered env node ctx d .abstract made (d.insert "oneOf" (.arr (definitions made)))
  | object {properties made parts} (h : Gathers env .empty properties made parts) :
      Rendered env node ctx d (.object properties) made (parts.write env.settings d)

theorem Rendered.inside {shape : Shape} {made : List Described}
    (h : Rendered env node ctx d shape made d') : ∀ m ∈ made, Inside env m.type m.ctx := by
  cases h with
  | union h => exact h.inside
  | intersection h | tuple h | abstract _ _ h => exact ofParts.inside h
  | object h => exact h.inside
  | array => exact List.forall_mem_singleton.2 (.part _)
  | map => exact List.forall_mem_singleton.2 (.mapValue _)
  | _ => exact fun m hm => absurd hm List.not_mem_nil

theorem objectDefinition_ok {properties : List SymbolId}
    (h : (objectDefinition env describe properties d).on p = (.ok d', p')) :
    ∃ made parts, Describes describe p made p' ∧ Gathers env .empty properties made parts ∧
      d' = parts.write env.settings d := by
  rw [objectDefinition, Run.on_bind_eq_ok] at h
  obtain ⟨parts, p₁, hparts, hpure⟩ := h
  cases hpure
  obtain ⟨made, hmade, hgathers⟩ := objectProperties_ok hparts
  exact ⟨made, parts, hmade, hgathers, rfl⟩

theorem functionDefinition_ok
    (h : (functionDefinition env describe node d).on p = (.ok d', p')) :
    Quiet p p' ∧ Rendered env node ctx d .function [] d' := by
  unfold functionDefinition at h
  split at h <;> rename_i hsetting
  · cases h
    exact ⟨.refl _, .typeof hsetting⟩
  · simp only [Run.on_bind_eq_ok] at h
    obtain ⟨_, p₁, hnotice, hobject⟩ := h
    cases hobject
    exact ⟨notice_ok hnotice, .function (Bool.eq_false_iff.2 hsetting)⟩

theorem mapDefinition_ok {key : IndexKey} {value : TypeId}
    (h : (mapDefinition env describe key value d).on p = (.ok d', p')) :
    ∃ made, Describes describe p made p' ∧ Rendered env node ctx d (.map key value) made d' := by
  rw [mapDefinition, Run.on_bind_eq_ok] at h
  obtain ⟨items, p₁, hitems, h⟩ := h
  cases key <;> cases h
  · exact ⟨_, .single hitems, .map .string value items⟩
  · exact ⟨_, .single hitems, .map .number value items⟩

theorem abstractDefinition_ok
    (h : (abstractDefinition env describe node d).on p = (.ok d', p')) :
    ∃ made, Describes describe p made p' ∧ Rendered env node ctx d .abstract made d' := by
  simp only [abstractDefinition, Run.on_bind_eq_ok, Run.on_ofExcept_eq_ok] at h
  obtain ⟨names, _, ⟨hnames, rfl⟩, branches, p₁, hbranches, hpure⟩ := h
  cases hpure
  obtain ⟨types, made, htypes, hmade, hparts, rfl⟩ := subtypes_ok hbranches
  exact ⟨made, hmade, .abstract hnames htypes hparts⟩

theorem render_ok {shape : Shape} (h : (render env describe node ctx shape d).on p = (.ok d', p')) :
    ∃ made, Describes describe p made p' ∧ Rendered env node ctx d shape made d' := by
  cases shape with
  | union members =>
      simp only [render, unionDefinition, Run.on_bind_eq_ok] at h
      obtain ⟨parts, p₁, hparts, hpure⟩ := h
      cases hpure
      obtain ⟨made, hmade, hsorts⟩ := unionMembers_ok hparts
      exact ⟨made, hmade, .union hsorts⟩
  | intersection members =>
      simp only [render, Run.on_bind_eq_ok] at h
      obtain ⟨items, p₁, hitems, hpure⟩ := h
      cases hpure
      obtain ⟨made, hmade, hparts, rfl⟩ := parts_ok hitems
      exact ⟨made, hmade, .intersection hparts⟩
  | tuple elements =>
      simp only [render, tupleDefinition, Run.on_bind_eq_ok] at h
      obtain ⟨items, p₁, hitems, hpure⟩ := h
      cases hpure
      obtain ⟨made, hmade, hparts, rfl⟩ := parts_ok hitems
      exact ⟨made, hmade, .tuple hparts⟩
  | primitive tag => cases h; exact ⟨[], .nil (.refl _), .primitive tag⟩
  | literal value => cases h; exact ⟨[], .nil (.refl _), .literal value⟩
  | array element =>
      simp only [render, Run.on_bind_eq_ok] at h
      obtain ⟨items, p₁, hitems, hpure⟩ := h
      cases hpure
      exact ⟨_, .single hitems, .array element items⟩
  | date => cases h; exact ⟨[], .nil (.refl _), .date⟩
  | nonPrimitive => cases h; exact ⟨[], .nil (.refl _), .nonPrimitive⟩
  | unconstrained => cases h; exact ⟨[], .nil (.refl _), .unconstrained⟩
  | unsupported =>
      simp only [render, Run.on_bind_eq_ok] at h
      obtain ⟨_, p₁, hnotice, hpure⟩ := h
      cases hpure
      exact ⟨[], .nil (notice_ok hnotice), .unsupported⟩
  | enum declaration =>
      simp only [render, enumDefinition, Run.on_bind_eq_ok] at h
      obtain ⟨_, p₁, hnotices, hpure⟩ := h
      cases hpure
      exact ⟨[], .nil (forM_notice_ok hnotices), .enum declaration⟩
  | emptyObject => cases h; exact ⟨[], .nil (.refl _), .emptyObject⟩
  | function =>
      obtain ⟨quiet, hrendered⟩ := functionDefinition_ok h
      exact ⟨[], .nil quiet, hrendered⟩
  | map key value => exact mapDefinition_ok h
  | abstract => exact abstractDefinition_ok h
  | object properties =>
      obtain ⟨made, parts, hmade, hgathers, rfl⟩ := objectDefinition_ok h
      exact ⟨made, hmade, .object hgathers⟩

/-- An annotated type is taken as it is; any other one is completed by its shape. -/
inductive Completed (env : Environment) (node : TypeNode) (ctx : Context) (d : Definition) :
    List Described → Definition → Prop where
  | annotated (h : d.hasType = true) : Completed env node ctx d [] d
  | shaped {shape made d'} (h : d.hasType = false)
      (hshape : Shape.ofNode env.graph node ctx.reffed = .ok shape)
      (hrendered : Rendered env node ctx d shape made d') : Completed env node ctx d made d'

theorem Completed.inside {made : List Described} (h : Completed env node ctx d made d') :
    ∀ m ∈ made, Inside env m.type m.ctx := by
  cases h with
  | annotated => exact fun m hm => absurd hm List.not_mem_nil
  | shaped _ _ hrendered => exact hrendered.inside

theorem complete_ok (h : (complete env describe node ctx d).on p = (.ok d', p')) :
    ∃ made, Describes describe p made p' ∧ Completed env node ctx d made d' := by
  unfold complete at h
  split at h
  · rename_i htype
    cases h
    exact ⟨[], .nil (.refl _), .annotated htype⟩
  · rename_i htype
    simp only [Run.on_bind_eq_ok, Run.on_ofExcept_eq_ok] at h
    obtain ⟨shape, _, ⟨hshape, rfl⟩, h⟩ := h
    obtain ⟨made, hmade, hrendered⟩ := render_ok h
    exact ⟨made, hmade, .shaped (Bool.eq_false_iff.2 htype) hshape hrendered⟩

/-! ## Types -/

/-- The name by which a type is referred to in a place. -/
def referenceOf (env : Environment) (type : TypeId) (ctx : Context) :
    Except Failure (Option String) := do
  let node ← env.graph.typeNode type
  let symbol ← Shape.symbolOf env.graph node.symbol
  referenceName env node symbol ctx

theorem referenceOf_eq {symbol : Option Symbol} (hnode : env.graph.typeNode type = .ok node)
    (hsymbol : Shape.symbolOf env.graph node.symbol = .ok symbol) :
    referenceOf env type ctx = referenceName env node symbol ctx := by
  simp only [referenceOf, hnode, hsymbol, bind, Except.bind]

theorem annotationsOf_ok {id : Option SymbolId} {notes : Annotations}
    (h : annotationsOf env id = .ok notes) :
    notes = .empty ∨ ∃ symbol ∈ env.graph.symbols.values,
      notes = .ofSymbol env.settings.validationKeywords symbol := by
  unfold annotationsOf at h
  split at h
  · cases h
    exact .inl rfl
  · rename_i id
    obtain ⟨symbol, hsymbol, hpure⟩ := outcome_bind_eq_ok.1 h
    cases hpure
    exact .inr ⟨symbol, List.mem_map_of_mem (Graph.mem_symbols hsymbol), rfl⟩

/-- What holds of all annotations in a graph holds of those that concern a type. -/
theorem remarks_induction {remarks : Remarks} {P : Annotations → Prop} (hempty : P .empty)
    (hsymbol : ∀ symbol ∈ env.graph.symbols.values,
      P (.ofSymbol env.settings.validationKeywords symbol))
    (h : Remarks.of env node ctx = .ok remarks) :
    P remarks.reffed ∧ P remarks.property ∧ P remarks.own := by
  have holds {id : Option SymbolId} {notes : Annotations} (h : annotationsOf env id = .ok notes) :
      P notes := by
    obtain rfl | ⟨symbol, hmem, rfl⟩ := annotationsOf_ok h
    · exact hempty
    · exact hsymbol symbol hmem
  simp only [Remarks.of, outcome_bind_eq_ok] at h
  obtain ⟨reffed, hreffed, property, hproperty, own, hown, hpure⟩ := h
  cases hpure
  exact ⟨holds hreffed, holds hproperty, holds hown⟩

theorem hasType_titled (settings : Settings) (name : String) (d : Definition) :
    (titled settings name d).hasType = d.hasType :=
  Definition.hasType_insertIf_of_ne d _ (by decide) _

theorem remarks_standing {asRef : Bool} {remarks : Remarks}
    (h : Remarks.of env node (Context.standing asRef) = .ok remarks) :
    remarks.property = .empty := by
  simp only [Remarks.of, outcome_bind_eq_ok] at h
  obtain ⟨reffed, -, property, hproperty, own, -, hpure⟩ := h
  cases hproperty
  cases hpure
  rfl

inductive TypeDescribed (env : Environment) (describe : Describe) (type : TypeId) (ctx : Context) :
    Progress → Definition → Progress → Prop where
  | inlined {p p' node remarks made d} (hnode : env.graph.typeNode type = .ok node)
      (hremarks : Remarks.of env node ctx = .ok remarks)
      (hname : referenceOf env type ctx = .ok none) (hmade : Describes describe p made p')
      (hd : Completed env node ctx (remarks.onType true) made d) :
      TypeDescribed env describe type ctx p (remarks.widen d) p'
  | known {p node remarks name} (hnode : env.graph.typeNode type = .ok node)
      (hremarks : Remarks.of env node ctx = .ok remarks)
      (hname : referenceOf env type ctx = .ok (some name)) (taken : name ∈ p.registry.keys) :
      TypeDescribed env describe type ctx p (remarks.widen (remarks.onReference name))
        (p.refer name type ctx)
  | new {p p₁ node remarks name made d} (hnode : env.graph.typeNode type = .ok node)
      (hremarks : Remarks.of env node ctx = .ok remarks)
      (hname : referenceOf env type ctx = .ok (some name)) (free : name ∉ p.registry.keys)
      (hmade : Describes describe (p.reserve name type ctx) made p₁)
      (hd : Completed env node ctx (titled env.settings name (remarks.onType false)) made d) :
      TypeDescribed env describe type ctx p (remarks.widen (remarks.onReference name))
        ((p₁.fill name type d).refer name type ctx)

theorem isRegistered_ok {name : String} {taken : Bool}
    (h : (Describing.isRegistered name).on p = (.ok taken, p')) :
    p' = p ∧ (taken = true ↔ name ∈ p.registry.keys) := by
  cases h
  exact ⟨rfl, Dict.contains_iff_mem_keys⟩

/-- How the description of a type runs, up to the completion of its definition. -/
inductive TypeRun (env : Environment) (describe : Describe) (type : TypeId) (ctx : Context) :
    Progress → Definition → Progress → Prop where
  | inlined {p p' node remarks d} (hnode : env.graph.typeNode type = .ok node)
      (hremarks : Remarks.of env node ctx = .ok remarks)
      (hname : referenceOf env type ctx = .ok none)
      (hcomplete : (complete env describe node ctx (remarks.onType true)).on p = (.ok d, p')) :
      TypeRun env describe type ctx p (remarks.widen d) p'
  | known {p node remarks name} (hnode : env.graph.typeNode type = .ok node)
      (hremarks : Remarks.of env node ctx = .ok remarks)
      (hname : referenceOf env type ctx = .ok (some name)) (taken : name ∈ p.registry.keys) :
      TypeRun env describe type ctx p (remarks.widen (remarks.onReference name))
        (p.refer name type ctx)
  | new {p p₁ node remarks name d} (hnode : env.graph.typeNode type = .ok node)
      (hremarks : Remarks.of env node ctx = .ok remarks)
      (hname : referenceOf env type ctx = .ok (some name)) (free : name ∉ p.registry.keys)
      (hcomplete : (complete env describe node ctx
        (titled env.settings name (remarks.onType false))).on (p.reserve name type ctx) =
          (.ok d, p₁)) :
      TypeRun env describe type ctx p (remarks.widen (remarks.onReference name))
        ((p₁.fill name type d).refer name type ctx)

theorem registerType_ok {name : String} {u : Unit}
    (h : (registerType env describe type node ctx name d).on p = (.ok u, p')) :
    name ∈ p.registry.keys ∧ p' = p ∨
      name ∉ p.registry.keys ∧ ∃ p₁ d', (complete env describe node ctx
        (titled env.settings name d)).on (p.reserve name type ctx) = (.ok d', p₁) ∧
        p' = p₁.fill name type d' := by
  rw [registerType, Run.on_bind_eq_ok] at h
  obtain ⟨taken, _, htaken, h⟩ := h
  obtain ⟨rfl, htaken⟩ := isRegistered_ok htaken
  split at h <;> rename_i hbranch
  · cases h
    exact .inl ⟨htaken.1 hbranch, rfl⟩
  · simp only [Run.on_bind_eq_ok] at h
    obtain ⟨_, _, hreserve, d', p₁, hcomplete, hfill⟩ := h
    cases hreserve
    cases hfill
    exact .inr ⟨fun hm => hbranch (htaken.2 hm), p₁, d', hcomplete, rfl⟩

theorem describeType_run (h : (describeType env describe type ctx).on p = (.ok d, p')) :
    TypeRun env describe type ctx p d p' := by
  simp only [describeType, Run.on_bind_eq_ok, Run.on_ofExcept_eq_ok] at h
  obtain ⟨node, _, ⟨hnode, rfl⟩, symbol, _, ⟨hsymbol, rfl⟩, name, _, ⟨hname, rfl⟩, remarks, _,
    ⟨hremarks, rfl⟩, h⟩ := h
  rw [← referenceOf_eq hnode hsymbol] at hname
  cases name with
  | none =>
      simp only [Run.on_bind_eq_ok] at h
      obtain ⟨d₁, p₁, hcomplete, hpure⟩ := h
      cases hpure
      exact .inlined hnode hremarks hname hcomplete
  | some name =>
      simp only [Run.on_bind_eq_ok] at h
      obtain ⟨_, p₁, hregister, _, p₂, hrefer, _, p₃, hreference, hpure⟩ := h
      cases hrefer
      cases hreference
      cases hpure
      obtain ⟨taken, rfl⟩ | ⟨free, p₂, d', hcomplete, rfl⟩ := registerType_ok hregister
      · exact .known hnode hremarks hname taken
      · exact .new hnode hremarks hname free hcomplete

theorem TypeRun.described (h : TypeRun env describe type ctx p d p') :
    TypeDescribed env describe type ctx p d p' := by
  cases h with
  | inlined hnode hremarks hname hcomplete =>
      obtain ⟨made, hmade, hd⟩ := complete_ok hcomplete
      exact .inlined hnode hremarks hname hmade hd
  | known hnode hremarks hname taken => exact .known hnode hremarks hname taken
  | new hnode hremarks hname free hcomplete =>
      obtain ⟨made, hmade, hd⟩ := complete_ok hcomplete
      exact .new hnode hremarks hname free hmade hd

theorem typeDefinition_run {depth : Nat}
    (h : (typeDefinition env depth type ctx).on p = (.ok d, p')) :
    ∃ rest, depth = rest + 1 ∧ TypeRun env (typeDefinition env rest) type ctx p d p' := by
  cases depth with
  | zero =>
      simp only [typeDefinition, Run.on_bind_eq_ok] at h
      obtain ⟨_, _, _, hthrow⟩ := h
      cases hthrow
  | succ rest => exact ⟨rest, rfl, describeType_run h⟩

theorem typeDefinition_ok {depth : Nat}
    (h : (typeDefinition env depth type ctx).on p = (.ok d, p')) :
    ∃ rest, depth = rest + 1 ∧ TypeDescribed env (typeDefinition env rest) type ctx p d p' := by
  obtain ⟨rest, hrest, hrun⟩ := typeDefinition_run h
  exact ⟨rest, hrest, hrun.described⟩

/-- What the run of a type does if the runs of its parts do it, every successful description does,
to any depth. -/
theorem typeDefinition_induction
    {R : TypeId → Context → Progress → Definition → Progress → Prop}
    (hrun : ∀ {depth},
      (∀ {type ctx p d p'}, (typeDefinition env depth type ctx).on p = (.ok d, p') →
        R type ctx p d p') →
      ∀ {type ctx p d p'}, TypeRun env (typeDefinition env depth) type ctx p d p' →
        R type ctx p d p')
    {depth : Nat} (h : (typeDefinition env depth type ctx).on p = (.ok d, p')) :
    R type ctx p d p' := by
  induction depth generalizing type ctx p d p' with
  | zero =>
      obtain ⟨rest, hrest, -⟩ := typeDefinition_run h
      omega
  | succ depth ih =>
      obtain ⟨rest, hrest, hbelow⟩ := typeDefinition_run h
      cases hrest
      exact hrun ih hbelow

end TypeSchema.Schema
