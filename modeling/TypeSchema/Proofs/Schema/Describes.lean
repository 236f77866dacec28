import TypeSchema.Schema.OfType

/-!
# What describing a type amounts to

A successful description makes a list of further descriptions, one after the other, and assembles
what they give.  The relations below separate the two: `Describes` follows the progress through the
descriptions made, and `Sorts`, `Gathers`, `Rendered` and `Completed` say what is assembled from
their definitions, without any progress.  `TypeDescribed` puts both together for one type.
-/

namespace TypeSchema.Schema

/-! ## Descriptions made -/

/-- A description that was made and what it gave. -/
structure Described where
  type : TypeId
  ctx : Context
  definition : Definition

/-- Between descriptions only notices are given and properties marked. -/
structure Quiet (p p' : Progress) : Prop where
  registry : p'.registry = p.registry
  history : p'.history = p.history
  marks : p.mayBeAbsent ⊆ p'.mayBeAbsent

theorem Quiet.refl (p : Progress) : Quiet p p := ⟨rfl, rfl, List.Subset.refl _⟩

theorem Quiet.trans {p p₁ p' : Progress} (h : Quiet p p₁) (h' : Quiet p₁ p') : Quiet p p' :=
  ⟨h'.registry.trans h.registry, h'.history.trans h.history,
    List.Subset.trans h.marks h'.marks⟩

theorem quiet_notice (p : Progress) (n : Notice) : Quiet p (p.notice n) :=
  ⟨rfl, rfl, List.Subset.refl _⟩

theorem quiet_markAbsent (p : Progress) (property : SymbolId) :
    Quiet p (p.markAbsent property) := by
  unfold Progress.markAbsent
  split
  · exact .refl p
  · exact ⟨rfl, rfl, List.subset_append_left _ _⟩

theorem mem_markAbsent {p : Progress} {property id : SymbolId} :
    id ∈ (p.markAbsent property).mayBeAbsent ↔ id = property ∨ id ∈ p.mayBeAbsent := by
  unfold Progress.markAbsent
  split
  · rename_i hmem
    exact ⟨.inr, fun h => h.elim (fun heq => heq ▸ hmem) fun h => h⟩
  · rw [List.mem_append, List.mem_singleton, or_comm]

/-- The descriptions made on the way from one progress to another, in their order. -/
inductive Describes (describe : Describe) : Progress → List Described → Progress → Prop where
  | nil {p p'} (quiet : Quiet p p') : Describes describe p [] p'
  | cons {p p₁ p₂ p' type ctx d made} (quiet : Quiet p p₁)
      (first : (describe type ctx).on p₁ = (.ok d, p₂)) (rest : Describes describe p₂ made p') :
      Describes describe p (⟨type, ctx, d⟩ :: made) p'

namespace Describes

variable {describe : Describe} {p p₁ p' : Progress} {made made' : List Described}

theorem quiet_left (quiet : Quiet p p₁) (h : Describes describe p₁ made p') :
    Describes describe p made p' := by
  cases h with
  | nil quiet' => exact .nil (quiet.trans quiet')
  | cons quiet' first rest => exact .cons (quiet.trans quiet') first rest

theorem append (h : Describes describe p made p₁) (h' : Describes describe p₁ made' p') :
    Describes describe p (made ++ made') p' := by
  induction h with
  | nil quiet => exact h'.quiet_left quiet
  | cons quiet first _ ih => exact .cons quiet first (ih h')

theorem single {type : TypeId} {ctx : Context} {d : Definition}
    (h : (describe type ctx).on p = (.ok d, p')) :
    Describes describe p [⟨type, ctx, d⟩] p' :=
  .cons (.refl p) h (.nil (.refl p'))

theorem quiet_right (h : Describes describe p made p₁) (quiet : Quiet p₁ p') :
    Describes describe p made p' := by
  simpa using h.append (.nil quiet)

/-- What every successful description does to the progress, a list of them does. -/
theorem relates {R : Progress → Progress → Prop} (hquiet : ∀ {p p'}, Quiet p p' → R p p')
    (htrans : ∀ {p p₁ p'}, R p p₁ → R p₁ p' → R p p')
    (hdescribe : ∀ {type ctx d p p'}, (describe type ctx).on p = (.ok d, p') → R p p')
    (h : Describes describe p made p') : R p p' := by
  induction h with
  | nil quiet => exact hquiet quiet
  | cons quiet first _ ih => exact htrans (hquiet quiet) (htrans (hdescribe first) ih)

theorem exists_run (h : Describes describe p made p') {m : Described} (hm : m ∈ made) :
    ∃ p p', (describe m.type m.ctx).on p = (.ok m.definition, p') := by
  induction h with
  | nil => exact absurd hm List.not_mem_nil
  | @cons _ p₁ p₂ _ type ctx d _ _ first _ ih =>
      rcases List.mem_cons.1 hm with rfl | hm
      · exact ⟨p₁, p₂, first⟩
      · exact ih hm

/-- What holds of every successful description holds of those that were made. -/
theorem forall_made {P : Described → Prop}
    (hdescribe : ∀ {type ctx d p p'}, (describe type ctx).on p = (.ok d, p') → P ⟨type, ctx, d⟩)
    (h : Describes describe p made p') : ∀ m ∈ made, P m := by
  intro m hm
  obtain ⟨p, p', hrun⟩ := h.exists_run hm
  exact hdescribe hrun

end Describes

/-! ## Notices and marks -/

theorem notice_ok {n : Notice} {p p' : Progress} {u : Unit}
    (h : (Describing.notice n).on p = (.ok u, p')) : Quiet p p' := by
  cases h
  exact quiet_notice p n

theorem markAbsent_ok {property : SymbolId} {p p' : Progress} {u : Unit}
    (h : (Describing.markAbsent property).on p = (.ok u, p')) : Quiet p p' := by
  cases h
  exact quiet_markAbsent p property

theorem on_forM_notice (notices : List Notice) (p : Progress) :
    (notices.forM Describing.notice).on p = (.ok (), { p with notices := p.notices ++ notices }) := by
  induction notices generalizing p with
  | nil =>
      rw [List.append_nil]
      rfl
  | cons notice rest ih =>
      change (Describing.notice notice >>= fun _ => rest.forM Describing.notice).on p = _
      rw [Run.on_bind]
      change (rest.forM Describing.notice).on (p.notice notice) = _
      rw [ih, Progress.notice, List.append_assoc, List.singleton_append]

theorem forM_notice_ok {notices : List Notice} {p p' : Progress} {u : Unit}
    (h : (notices.forM Describing.notice).on p = (.ok u, p')) : Quiet p p' := by
  rw [on_forM_notice] at h
  cases h
  exact ⟨rfl, rfl, List.Subset.refl _⟩

/-! ## Parts -/

/-- The descriptions of parts that are no properties. -/
def ofParts (env : Environment) (types : List TypeId) (made : List Described) : Prop :=
  made.map (fun m => (m.type, m.ctx)) = types.map fun type => (type, Context.nested env.settings)

def definitions (made : List Described) : List Json := made.map (·.definition.toJson)

variable {env : Environment} {describe : Describe} {p p' : Progress}

theorem ofParts.cons {member : TypeId} {d : Definition} {types : List TypeId}
    {made : List Described} (h : ofParts env types made) :
    ofParts env (member :: types) (⟨member, Context.nested env.settings, d⟩ :: made) := by
  unfold ofParts at h ⊢
  rw [List.map_cons, List.map_cons, h]

theorem part_ok {type : TypeId} {ctx : Context} {item : Json}
    (h : (Definition.toJson <$> describe type ctx).on p = (.ok item, p')) :
    ∃ d, (describe type ctx).on p = (.ok d, p') ∧ d.toJson = item :=
  Run.on_map_eq_ok.1 h

theorem parts_ok {types : List TypeId} {items : List Json}
    (h : (parts env describe types).on p = (.ok items, p')) :
    ∃ made, Describes describe p made p' ∧ ofParts env types made ∧ items = definitions made := by
  unfold parts at h
  induction types generalizing p items with
  | nil =>
      cases h
      exact ⟨[], .nil (.refl _), rfl, rfl⟩
  | cons type rest ih =>
      simp only [Describing.forEach, Run.on_bind_eq_ok] at h
      obtain ⟨item, p₁, hitem, items', p₂, hrest, hpure⟩ := h
      cases hpure
      obtain ⟨d, hd, rfl⟩ := part_ok hitem
      obtain ⟨made, hmade, hparts, rfl⟩ := ih hrest
      exact ⟨_, .cons (.refl p) hd hmade, hparts.cons, rfl⟩

theorem subtypes_ok {names : List String} {items : List Json}
    (h : (Describing.forEach (subtypeDefinition env describe) names).on p = (.ok items, p')) :
    ∃ types made, names.map env.table.all.find? = types.map some ∧
      Describes describe p made p' ∧ ofParts env types made ∧ items = definitions made := by
  induction names generalizing p items with
  | nil =>
      cases h
      exact ⟨[], [], rfl, .nil (.refl _), rfl, rfl⟩
  | cons name rest ih =>
      simp only [Describing.forEach, Run.on_bind_eq_ok] at h
      obtain ⟨item, p₁, hitem, items', p₂, hrest, hpure⟩ := h
      cases hpure
      obtain ⟨types, made, hnames, hmade, hparts, rfl⟩ := ih hrest
      unfold subtypeDefinition at hitem
      split at hitem
      · rename_i type htype
        obtain ⟨d, hd, rfl⟩ := part_ok hitem
        refine ⟨type :: types, _, ?_, .cons (.refl p) hd hmade, hparts.cons, rfl⟩
        rw [List.map_cons, List.map_cons, htype, hnames]
      · cases hitem

/-! ## Unions -/

/-- As a member of a union the type is described, since it is no literal. -/
def IsDescribed (env : Environment) (member : TypeId) : Prop :=
  ∃ node, env.graph.typeNode member = .ok node ∧ Shape.literalValue node = none

/-- How the members of a union go into its parts, given the definitions of those that are no
literals. -/
inductive Sorts (env : Environment) : UnionParts → List TypeId → List Described → UnionParts → Prop
    where
  | nil {parts} : Sorts env parts [] [] parts
  | value {parts member rest made parts' node value}
      (hnode : env.graph.typeNode member = .ok node)
      (hvalue : Shape.literalValue node = some value)
      (others : Sorts env (parts.addValue value) rest made parts') :
      Sorts env parts (member :: rest) made parts'
  | absent {parts member rest made parts'} {d : Definition} (hmember : IsDescribed env member)
      (hd : d.bareType = some "undefined") (others : Sorts env parts rest made parts') :
      Sorts env parts (member :: rest) (⟨member, Context.nested env.settings, d⟩ :: made) parts'
  | tag {parts member rest made parts' tag} {d : Definition} (hmember : IsDescribed env member)
      (hd : d.bareType = some tag) (hne : tag ≠ "undefined")
      (others : Sorts env (parts.addTag tag) rest made parts') :
      Sorts env parts (member :: rest) (⟨member, Context.nested env.settings, d⟩ :: made) parts'
  | schema {parts member rest made parts'} {d : Definition} (hmember : IsDescribed env member)
      (hd : d.bareType = none) (others : Sorts env (parts.addSchema d) rest made parts') :
      Sorts env parts (member :: rest) (⟨member, Context.nested env.settings, d⟩ :: made) parts'

private theorem absentMember_ok {property : Option SymbolId} {parts parts' : UnionParts}
    (h : (match property with
      | some property => do
        Describing.markAbsent property
        pure parts
      | none => pure parts : Describing UnionParts).on p = (.ok parts', p')) :
    Quiet p p' ∧ parts' = parts := by
  split at h
  · rw [Run.on_bind_eq_ok] at h
    obtain ⟨_, p₁, hmark, hpure⟩ := h
    cases hpure
    exact ⟨markAbsent_ok hmark, rfl⟩
  · cases h
    exact ⟨.refl _, rfl⟩

private theorem schemaMember_ok {member : TypeId} {d : Definition} {parts parts' : UnionParts}
    (h : (if listsTypes d = true then do
        Describing.notice (.memberListsTypes member)
        pure (parts.addSchema d)
      else pure (parts.addSchema d) : Describing UnionParts).on p = (.ok parts', p')) :
    Quiet p p' ∧ parts' = parts.addSchema d := by
  split at h
  · rw [Run.on_bind_eq_ok] at h
    obtain ⟨_, p₁, hnotice, hpure⟩ := h
    cases hpure
    exact ⟨notice_ok hnotice, rfl⟩
  · cases h
    exact ⟨.refl _, rfl⟩

theorem unionMembers_ok {property : Option SymbolId} {members : List TypeId}
    {parts parts' : UnionParts}
    (h : (unionMembers env describe property parts members).on p = (.ok parts', p')) :
    ∃ made, Describes describe p made p' ∧ Sorts env parts members made parts' := by
  induction members generalizing p parts with
  | nil =>
      cases h
      exact ⟨[], .nil (.refl _), .nil⟩
  | cons member rest ih =>
      simp only [unionMembers, unionMember, Run.on_bind_eq_ok, Run.on_ofExcept_eq_ok] at h
      obtain ⟨parts₁, p₁, ⟨node, _, ⟨hnode, rfl⟩, hmember⟩, hrest⟩ := h
      obtain ⟨made, hmade, hsorts⟩ := ih hrest
      split at hmember
      · rename_i value hvalue
        cases hmember
        exact ⟨made, hmade, .value hnode hvalue hsorts⟩
      · rename_i hliteral
        have hdescribed : IsDescribed env member := ⟨node, hnode, hliteral⟩
        rw [Run.on_bind_eq_ok] at hmember
        obtain ⟨d, p₂, hd, hmember⟩ := hmember
        split at hmember
        · rename_i hbare
          obtain ⟨quiet, rfl⟩ := absentMember_ok hmember
          exact ⟨_, .cons (.refl _) hd (hmade.quiet_left quiet), .absent hdescribed hbare hsorts⟩
        · rename_i tag hne hbare
          cases hmember
          exact ⟨_, .cons (.refl _) hd hmade, .tag hdescribed hbare (fun e => hne (e ▸ rfl)) hsorts⟩
        · rename_i hbare
          obtain ⟨quiet, rfl⟩ := schemaMember_ok hmember
          exact ⟨_, .cons (.refl _) hd (hmade.quiet_left quiet), .schema hdescribed hbare hsorts⟩

@[simp] theorem addTag_schemas (parts : UnionParts) (tag : String) :
    (parts.addTag tag).schemas = parts.schemas := by
  unfold UnionParts.addTag
  split <;> rfl

@[simp] theorem addValue_schemas (parts : UnionParts) (value : Json) :
    (parts.addValue value).schemas = parts.schemas := by
  unfold UnionParts.addValue
  split <;> rfl

@[simp] theorem addTag_values (parts : UnionParts) (tag : String) :
    (parts.addTag tag).values = parts.values := by
  unfold UnionParts.addTag
  split <;> rfl

@[simp] theorem addValue_tags (parts : UnionParts) (value : Json) :
    (parts.addValue value).tags = parts.tags := by
  unfold UnionParts.addValue
  split <;> rfl

theorem addTag_tags_ne_nil (parts : UnionParts) (tag : String) :
    (parts.addTag tag).tags ≠ [] := by
  unfold UnionParts.addTag
  split
  · rename_i hmem
    exact List.ne_nil_of_mem hmem
  · simp

theorem addValue_values_ne_nil (parts : UnionParts) (value : Json) :
    (parts.addValue value).values ≠ [] := by
  unfold UnionParts.addValue
  split
  · rename_i helem
    intro hnil
    rw [hnil] at helem
    cases helem
  · simp

@[simp] theorem joinBooleans_schemas (parts : UnionParts) :
    parts.joinBooleans.schemas = parts.schemas := by
  unfold UnionParts.joinBooleans
  split
  · exact addTag_schemas parts "boolean"
  · rfl

theorem mem_branches {parts : UnionParts} {branch : Definition} (h : branch ∈ parts.branches) :
    branch ∈ parts.schemas ∨ (∃ values, branch = UnionParts.enumSchema values) ∨
      branch = Definition.setTypes Dict.empty parts.joinBooleans.tags := by
  simp only [UnionParts.branches, List.mem_append, joinBooleans_schemas] at h
  obtain (hschema | hvalues) | htags := h
  · exact .inl hschema
  · split at hvalues
    · exact absurd hvalues List.not_mem_nil
    · exact .inr (.inl ⟨_, List.mem_singleton.1 hvalues⟩)
  · split at htags
    · exact absurd htags List.not_mem_nil
    · exact .inr (.inr (List.mem_singleton.1 htags))

/-! ## Objects -/

structure PropertyPlace (env : Environment) (id : SymbolId) (declaration : Option Declaration)
    (type : TypeId) (ctx : Context) : Prop where
  hasType : ∃ property, env.graph.symbol id = .ok property ∧ property.type = some type
  isDeclared : env.graph.firstDeclaration id = .ok declaration
  isWritten : ∃ reffed, writtenSymbol env.graph declaration = .ok reffed ∧
    ctx = ⟨env.settings.useRef, .oneOf, some id, reffed⟩

/-- The places inside types at which other types stand. -/
inductive Inside (env : Environment) : TypeId → Context → Prop where
  | part (type) : Inside env type (Context.nested env.settings)
  | mapValue (type) : Inside env type { Context.nested env.settings with unionKeyword := .anyOf }
  | property {id declaration type ctx} (place : PropertyPlace env id declaration type ctx) :
      Inside env type ctx

theorem Inside.asRef {type : TypeId} {ctx : Context} (h : Inside env type ctx) :
    ctx.asRef = env.settings.useRef := by
  cases h with
  | part => rfl
  | mapValue => rfl
  | property place =>
      obtain ⟨reffed, -, rfl⟩ := place.isWritten
      rfl

theorem ofParts.types_eq {types : List TypeId} {made : List Described}
    (h : ofParts env types made) : types = made.map (·.type) := by
  have hfst := congrArg (List.map Prod.fst) h
  simp only [List.map_map, Function.comp_def, List.map_id'] at hfst
  exact hfst.symm

theorem ofParts.nested {types : List TypeId} {made : List Described}
    (h : ofParts env types made) : ∀ m ∈ made, m.ctx = Context.nested env.settings := by
  intro m hm
  have hplace : (m.type, m.ctx) ∈ made.map fun m => (m.type, m.ctx) := List.mem_map.2 ⟨m, hm, rfl⟩
  rw [h] at hplace
  obtain ⟨type, -, heq⟩ := List.mem_map.1 hplace
  exact (Prod.mk.inj heq).2.symm

theorem ofParts.inside {types : List TypeId} {made : List Described}
    (h : ofParts env types made) : ∀ m ∈ made, Inside env m.type m.ctx := by
  intro m hm
  rw [h.nested m hm]
  exact .part m.type

theorem Sorts.inside {parts parts' : UnionParts} {members : List TypeId} {made : List Described}
    (h : Sorts env parts members made parts') : ∀ m ∈ made, Inside env m.type m.ctx := by
  induction h with
  | nil => exact fun m hm => absurd hm List.not_mem_nil
  | value _ _ _ ih => exact ih
  | absent _ _ _ ih | tag _ _ _ _ ih | schema _ _ _ ih =>
      exact List.forall_mem_cons.2 ⟨.part _, ih⟩

def withDefault (initializer : Option Initializer) (d : Definition) : Definition :=
  match initializer.map Literal.evaluate with
  | some (.ok (some value)) => d.insert "default" value
  | _ => d

theorem addDefault_ok {property : Symbol} {initializer : Option Initializer} {d d' : Definition}
    (h : (addDefault property initializer d).on p = (.ok d', p')) :
    Quiet p p' ∧ d' = withDefault initializer d := by
  unfold addDefault at h
  split at h
  · cases h
    exact ⟨.refl _, rfl⟩
  · rename_i initializer
    split at h <;> rename_i hvalue
    · cases h
      exact ⟨.refl _, by simp [withDefault, hvalue]⟩
    · cases h
      exact ⟨.refl _, by simp [withDefault, hvalue]⟩
    · rw [Run.on_bind_eq_ok] at h
      obtain ⟨_, p₁, hnotice, hpure⟩ := h
      cases hpure
      exact ⟨notice_ok hnotice, by simp [withDefault, hvalue]⟩

/-- What a property gives: nothing at all if its definition is to be ignored. -/
inductive OfProperty (env : Environment) (id : SymbolId) :
    List Described → Option Definition → Prop where
  | untyped {property} (hproperty : env.graph.symbol id = .ok property)
      (htype : property.type = none) : OfProperty env id [] (some Dict.empty)
  | ignored {declaration type ctx} {d : Definition}
      (place : PropertyPlace env id declaration type ctx) (hd : d.isIgnored = true) :
      OfProperty env id [⟨type, ctx, d⟩] none
  | kept {declaration type ctx} {d : Definition}
      (place : PropertyPlace env id declaration type ctx) (hd : d.isIgnored = false) :
      OfProperty env id [⟨type, ctx, d⟩]
        (some (withDefault (declaration.bind (·.initializer)) d))

theorem propertyDefinition_ok {id : SymbolId} {result : Option Definition}
    (h : (propertyDefinition env describe id).on p = (.ok result, p')) :
    ∃ made, Describes describe p made p' ∧ OfProperty env id made result := by
  simp only [propertyDefinition, Run.on_bind_eq_ok, Run.on_ofExcept_eq_ok] at h
  obtain ⟨property, _, ⟨hproperty, rfl⟩, declaration, _, ⟨hdeclaration, rfl⟩, h⟩ := h
  split at h
  · rename_i htype
    rw [Run.on_bind_eq_ok] at h
    obtain ⟨_, p₁, hnotice, hpure⟩ := h
    cases hpure
    exact ⟨[], .nil (notice_ok hnotice), .untyped hproperty htype⟩
  · rename_i type htype
    simp only [Run.on_bind_eq_ok, Run.on_ofExcept_eq_ok] at h
    obtain ⟨reffed, _, ⟨hreffed, rfl⟩, d, p₁, hd, h⟩ := h
    have place : PropertyPlace env id declaration type
        ⟨env.settings.useRef, .oneOf, some id, reffed⟩ :=
      ⟨⟨property, hproperty, htype⟩, hdeclaration, reffed, hreffed, rfl⟩
    split at h
    · rename_i hignored
      cases h
      exact ⟨_, .single hd, .ignored place hignored⟩
    · rename_i hignored
      obtain ⟨d', hdefault, rfl⟩ := Run.on_map_eq_ok.1 h
      obtain ⟨quiet, rfl⟩ := addDefault_ok hdefault
      exact ⟨_, (Describes.single hd).quiet_right quiet,
        .kept place (Bool.eq_false_iff.2 hignored)⟩

/-- How the properties of an object are added to its parts. -/
inductive Gathers (env : Environment) :
    ObjectParts → List SymbolId → List Described → ObjectParts → Prop where
  | nil {parts} : Gathers env parts [] [] parts
  | dropped {parts id rest made made' parts'} (h : OfProperty env id made none)
      (others : Gathers env parts rest made' parts') :
      Gathers env parts (id :: rest) (made ++ made') parts'
  | added {parts id rest made made' parts' property d} (isRequired : Bool)
      (hproperty : env.graph.symbol id = .ok property) (h : OfProperty env id made (some d))
      (others : Gathers env (parts.add property.name d isRequired) rest made' parts') :
      Gathers env parts (id :: rest) (made ++ made') parts'

theorem OfProperty.inside {id : SymbolId} {made : List Described} {result : Option Definition}
    (h : OfProperty env id made result) : ∀ m ∈ made, Inside env m.type m.ctx := by
  cases h with
  | untyped => exact fun m hm => absurd hm List.not_mem_nil
  | ignored place | kept place => exact List.forall_mem_singleton.2 (.property place)

theorem Gathers.inside {parts parts' : ObjectParts} {properties : List SymbolId}
    {made : List Described} (h : Gathers env parts properties made parts') :
    ∀ m ∈ made, Inside env m.type m.ctx := by
  induction h with
  | nil => exact fun m hm => absurd hm List.not_mem_nil
  | dropped hd _ ih | added _ _ hd _ ih => exact List.forall_mem_append.2 ⟨hd.inside, ih⟩

theorem objectProperties_ok {properties : List SymbolId} {parts parts' : ObjectParts}
    (h : (objectProperties env describe parts properties).on p = (.ok parts', p')) :
    ∃ made, Describes describe p made p' ∧ Gathers env parts properties made parts' := by
  induction properties generalizing p parts with
  | nil =>
      cases h
      exact ⟨[], .nil (.refl _), .nil⟩
  | cons id rest ih =>
      simp only [objectProperties, objectProperty, Run.on_bind_eq_ok, Run.on_ofExcept_eq_ok] at h
      obtain ⟨parts₁, p₁, ⟨property, _, ⟨hproperty, rfl⟩, result, p₂, hresult, h⟩, hrest⟩ := h
      obtain ⟨made, hmade, hof⟩ := propertyDefinition_ok hresult
      obtain ⟨made', hmade', hgathers⟩ := ih hrest
      split at h
      · cases h
        exact ⟨_, hmade.append hmade', .dropped hof hgathers⟩
      · rename_i d
        rw [Run.on_bind_eq_ok] at h
        obtain ⟨absent, p₃, habsent, hpure⟩ := h
        cases habsent
        cases hpure
        exact ⟨_, hmade.append hmade', .added _ hproperty hof hgathers⟩

end TypeSchema.Schema
