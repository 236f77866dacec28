import TypeSchema.Proofs.Annotation.Written
import TypeSchema.Proofs.Definition.Keywords
import TypeSchema.Proofs.Schema.Guarantee
import TypeSchema.Proofs.Schema.Shapes

/-!
# Definitions that are references

A definition is nothing but a reference in two ways only: its type is referred to by name, or its
type is a union of which a single branch is left, and that branch is such a definition.  All other
shapes write keywords of their own, and annotations never write a reference.
-/

namespace TypeSchema

namespace Schema

/-! ## Unions of which one branch is left -/

/-- As a member of a union the type leaves nothing: it is undefined or annotated to be. -/
def Vanishes (env : Environment) (type : TypeId) : Prop :=
  ∃ node, env.graph.typeNode type = .ok node ∧
    (node.kind = .undefined ∨
      ∃ remarks, Remarks.of env node (Context.nested env.settings) = .ok remarks ∧
        (remarks.onType true).bareType = some "undefined")

/-- The type is a union of which only the member is left. -/
def Leaves (env : Environment) (type member : TypeId) : Prop :=
  ∃ node before after, env.graph.typeNode type = .ok node ∧
    node.kind = .union (before ++ member :: after) ∧ IsDescribed env member ∧
    ∀ other ∈ before ++ after, IsDescribed env other ∧ Vanishes env other

/-- The type is a union, and all that is left of it is a reference to the name. -/
inductive Collapses (env : Environment) : TypeId → String → Prop where
  | referred {type member name} (hleaves : Leaves env type member)
      (hname : referenceOf env member (Context.nested env.settings) = .ok (some name)) :
      Collapses env type name
  | inlined {type member name} (hleaves : Leaves env type member)
      (hname : referenceOf env member (Context.nested env.settings) = .ok none)
      (hmember : Collapses env member name) : Collapses env type name

theorem Collapses.union {env : Environment} {type : TypeId} {name : String}
    (h : Collapses env type name) :
    ∃ node members, env.graph.typeNode type = .ok node ∧ node.kind = .union members := by
  cases h with
  | referred hleaves | inlined hleaves =>
      obtain ⟨node, before, after, hnode, hkind, -⟩ := hleaves
      exact ⟨node, _, hnode, hkind⟩

variable {env : Environment} {names : List String} {made : List Described}
  {parts parts' : UnionParts} {members : List TypeId}

theorem sorts_values_eq_nil (h : Sorts env parts members made parts')
    (hvalues : parts'.values = []) : parts.values = [] := by
  induction h with
  | nil => exact hvalues
  | value _ _ _ ih => exact absurd (ih hvalues) (addValue_values_ne_nil _ _)
  | tag _ _ _ _ ih => simpa using ih hvalues
  | absent _ _ _ ih | schema _ _ _ ih => exact ih hvalues

theorem sorts_tags_eq_nil (h : Sorts env parts members made parts') (htags : parts'.tags = []) :
    parts.tags = [] := by
  induction h with
  | nil => exact htags
  | value _ _ _ ih => simpa using ih htags
  | tag _ _ _ _ ih => exact absurd (ih htags) (addTag_tags_ne_nil _ _)
  | absent _ _ _ ih | schema _ _ _ ih => exact ih htags

def isUndefined (m : Described) : Bool := m.definition.bareType = some "undefined"

/-- Without values and tags every member is described, and a schema is left of each that is not
undefined. -/
theorem sorts_schemas (h : Sorts env parts members made parts') (hvalues : parts'.values = [])
    (htags : parts'.tags = []) :
    ofParts env members made ∧ (∀ m ∈ made, IsDescribed env m.type) ∧
      parts'.schemas = parts.schemas ++ (made.filter (!isUndefined ·)).map (·.definition) := by
  induction h with
  | nil => exact ⟨rfl, fun m hm => absurd hm List.not_mem_nil, by simp⟩
  | value _ _ others _ =>
      exact absurd (sorts_values_eq_nil others hvalues) (addValue_values_ne_nil _ _)
  | tag _ _ _ others _ => exact absurd (sorts_tags_eq_nil others htags) (addTag_tags_ne_nil _ _)
  | absent hmember hd _ ih =>
      obtain ⟨hparts, hdescribed, hschemas⟩ := ih hvalues htags
      refine ⟨hparts.cons, List.forall_mem_cons.2 ⟨hmember, hdescribed⟩, ?_⟩
      rw [hschemas, List.filter_cons_of_neg (by simp [isUndefined, hd])]
  | schema hmember hd _ ih =>
      obtain ⟨hparts, hdescribed, hschemas⟩ := ih hvalues htags
      refine ⟨hparts.cons, List.forall_mem_cons.2 ⟨hmember, hdescribed⟩, ?_⟩
      rw [hschemas, List.filter_cons_of_pos (by simp [isUndefined, hd])]
      simp [UnionParts.addSchema]

theorem sorts_single {only : Definition} (h : Sorts env .empty members made parts')
    (hvalues : parts'.values = []) (htags : parts'.tags = []) (hschemas : parts'.schemas = [only]) :
    ofParts env members made ∧ (∀ m ∈ made, IsDescribed env m.type) ∧
      ∃ before m after, made = before ++ m :: after ∧ m.definition = only ∧
        ∀ other ∈ before ++ after, isUndefined other = true := by
  obtain ⟨hparts, hdescribed, heq⟩ := sorts_schemas h hvalues htags
  rw [hschemas, UnionParts.empty, List.nil_append, eq_comm, List.map_eq_singleton_iff] at heq
  obtain ⟨m, hkept, hm⟩ := heq
  obtain ⟨before, after, hmade, hbefore, -, hafter⟩ := List.filter_eq_cons_iff.1 hkept
  refine ⟨hparts, hdescribed, before, m, after, hmade, hm, fun other hother => ?_⟩
  rcases List.mem_append.1 hother with hother | hother
  · simpa using hbefore other hother
  · simpa using List.filter_eq_nil_iff.1 hafter other hother

theorem mem_schemas_of_sorts (h : Sorts env parts members made parts') {s : Definition}
    (hs : s ∈ parts'.schemas) :
    s ∈ parts.schemas ∨ ∃ m ∈ made, m.definition = s ∧ s.bareType = none := by
  induction h with
  | nil => exact .inl hs
  | value _ _ _ ih => simpa using ih hs
  | absent _ _ _ ih =>
      refine (ih hs).imp_right ?_
      rintro ⟨m, hm, hd⟩
      exact ⟨m, List.mem_cons_of_mem _ hm, hd⟩
  | tag _ _ _ _ ih =>
      rcases ih hs with hold | ⟨m, hm, hd⟩
      · exact .inl (by simpa using hold)
      · exact .inr ⟨m, List.mem_cons_of_mem _ hm, hd⟩
  | schema _ hd _ ih =>
      rcases ih hs with hold | ⟨m, hm, hd'⟩
      · rcases List.mem_append.1 hold with hold | hnew
        · exact .inl hold
        · rw [List.mem_singleton.1 hnew]
          exact .inr ⟨_, List.mem_cons_self, rfl, hd⟩
      · exact .inr ⟨m, List.mem_cons_of_mem _ hm, hd'⟩

theorem tags_of_sorts (h : Sorts env parts members made parts')
    (hparts : "undefined" ∉ parts.tags) : "undefined" ∉ parts'.tags := by
  induction h with
  | nil => exact hparts
  | value _ _ _ ih => exact ih (by simpa using hparts)
  | absent _ _ _ ih | schema _ _ _ ih => exact ih hparts
  | tag _ _ hne _ ih =>
      refine ih ?_
      unfold UnionParts.addTag
      split
      · exact hparts
      · simp [hparts, hne.symm]

theorem joinBooleans_eq (h : parts.joinBooleans.tags = []) : parts.joinBooleans = parts := by
  unfold UnionParts.joinBooleans at h ⊢
  split
  · rename_i hpair
    rw [if_pos hpair] at h
    exact absurd h (addTag_tags_ne_nil parts "boolean")
  · rfl

theorem branches_eq_singleton {only : Definition} (h : parts.branches = [only])
    (hschema : only ∈ parts.schemas) :
    parts.schemas = [only] ∧ parts.values = [] ∧ parts.tags = [] := by
  have hne : parts.schemas ≠ [] := List.ne_nil_of_mem hschema
  simp only [UnionParts.branches, joinBooleans_schemas, List.append_eq_singleton_iff,
    List.append_eq_nil_iff, hne, false_and, false_or] at h
  obtain ⟨⟨hschemas, hvalues⟩, htags⟩ := h
  have hnil : parts.joinBooleans.tags = [] := by
    split at htags
    · rename_i hempty
      exact List.isEmpty_iff.1 hempty
    · cases htags
  rw [joinBooleans_eq hnil] at hvalues hnil
  refine ⟨hschemas, ?_, hnil⟩
  split at hvalues
  · rename_i hempty
    exact List.isEmpty_iff.1 hempty
  · cases hvalues

/-! ## What descriptions give -/

/-- A definition that was made is a reference only if its type is referred to or collapses. -/
structure Pointed (env : Environment) (names : List String) (m : Described) : Prop where
  reference : ∀ ref, m.definition.reference? = some ref →
    ∃ name ∈ names, ref = Definition.definitionsPointer ++ name ∧
      (referenceOf env m.type m.ctx = .ok (some name) ∨
        referenceOf env m.type m.ctx = .ok none ∧ Collapses env m.type name)
  definitions : ∀ field ∈ m.definition.definitions, field.2.reference? = none
  undefined : m.definition.bareType = some "undefined" →
    m.ctx = Context.nested env.settings → Vanishes env m.type

def CollapsesWithin (env : Environment) (names : List String) (type : TypeId) (d : Definition) :
    Prop :=
  ∀ ref, d.reference? = some ref →
    ∃ name ∈ names, ref = Definition.definitionsPointer ++ name ∧ Collapses env type name

variable {type : TypeId} {node : TypeNode} {ctx : Context} {d d' : Definition} {shape : Shape}

theorem links_of_mem_branches {branch : Definition} (h : branch ∈ parts.branches) :
    branch ∈ parts.schemas ∨ Definition.SameLinks Dict.empty branch := by
  obtain hschema | ⟨values, rfl⟩ | rfl := mem_branches h
  · exact .inl hschema
  · right
    unfold UnionParts.enumSchema
    refine Definition.SameLinks.insert ?_ rfl _
    split
    · exact (Definition.SameLinks.refl _).setType _
    · exact .refl _
  · exact .inr ((Definition.SameLinks.refl _).setTypes _)

theorem write_cases (parts : UnionParts) (keyword : UnionKeyword) (d : Definition) :
    parts.write keyword d = d ∨
      (∃ only, parts.branches = [only] ∧ parts.write keyword d = d.merge only) ∨
      ∃ items, parts.write keyword d = d.insert keyword.text (.arr items) := by
  unfold UnionParts.write
  split
  · exact .inl rfl
  · rename_i only honly
    exact .inr (.inl ⟨only, honly, rfl⟩)
  · exact .inr (.inr ⟨_, rfl⟩)

theorem isLink_unionKeyword (keyword : UnionKeyword) :
    Definition.isLink keyword.text = false := by
  cases keyword <;> rfl

/-- Where the one branch of a union is a schema, it is that of the one member left. -/
theorem leaves_of_only {only : Definition}
    (hnode : env.graph.typeNode type = .ok node) (hkind : node.kind = .union members)
    (h : Sorts env .empty members made parts)
    (hundefined : ∀ m ∈ made, m.definition.bareType = some "undefined" →
      m.ctx = Context.nested env.settings → Vanishes env m.type)
    (honly : parts.branches = [only]) (hschema : only ∈ parts.schemas) :
    ∃ m ∈ made, m.definition = only ∧ m.ctx = Context.nested env.settings ∧
      Leaves env type m.type := by
  obtain ⟨hschemas, hvalues, htags⟩ := branches_eq_singleton honly hschema
  -- What is left is the schema of one member, so all others were described as undefined.
  obtain ⟨hparts, hdescribed, before, m, after, rfl, rfl, hothers⟩ :=
    sorts_single h hvalues htags hschemas
  have hm : m ∈ before ++ m :: after := List.mem_append_right _ List.mem_cons_self
  refine ⟨m, hm, rfl, hparts.nested m hm, ?_⟩
  have hmembers := hparts.types_eq
  rw [List.map_append, List.map_cons] at hmembers
  refine ⟨node, before.map (·.type), after.map (·.type), hnode, hmembers ▸ hkind,
    hdescribed m hm, ?_⟩
  rw [← List.map_append]
  intro other hother
  obtain ⟨m', hm', rfl⟩ := List.mem_map.1 hother
  have hmem : m' ∈ before ++ m :: after :=
    (List.append_sublist_append_left before).2 (List.sublist_cons_self m after) |>.subset hm'
  exact ⟨hdescribed m' hmem,
    hundefined m' hmem (of_decide_eq_true (hothers m' hm')) (hparts.nested m' hmem)⟩

theorem only_collapses {only : Definition} {ref : String}
    (hnode : env.graph.typeNode type = .ok node) (hkind : node.kind = .union members)
    (h : Sorts env .empty members made parts) (hmade : ∀ m ∈ made, Pointed env names m)
    (honly : parts.branches = [only]) (href : only.reference? = some ref) :
    ∃ name ∈ names, ref = Definition.definitionsPointer ++ name ∧ Collapses env type name := by
  rcases links_of_mem_branches (honly ▸ List.mem_singleton.2 rfl) with hschema | hlinks
  · obtain ⟨m, hm, rfl, hctx, hleaves⟩ :=
      leaves_of_only hnode hkind h (fun m hm => (hmade m hm).undefined) honly hschema
    obtain ⟨name, hname, rfl, hreference⟩ := (hmade m hm).reference ref href
    rw [hctx] at hreference
    refine ⟨name, hname, rfl, ?_⟩
    rcases hreference with hreferred | ⟨hinlined, hcollapses⟩
    · exact .referred hleaves hreferred
    · exact .inlined hleaves hinlined hcollapses
  · rw [hlinks.reference?_eq] at href
    cases href

theorem union_collapses (hnode : env.graph.typeNode type = .ok node)
    (hkind : node.kind = .union members) (h : Sorts env .empty members made parts)
    (hmade : ∀ m ∈ made, Pointed env names m) (hd : d.reference? = none)
    (keyword : UnionKeyword) : CollapsesWithin env names type (parts.write keyword d) := by
  intro ref href
  rcases write_cases parts keyword d with heq | ⟨only, honly, heq⟩ | ⟨items, heq⟩
  · rw [heq, hd] at href
    cases href
  · rw [heq] at href
    rcases Definition.reference?_merge href with href | href
    · exact only_collapses hnode hkind h hmade honly href
    · rw [hd] at href
      cases href
  · rw [heq, ((Definition.SameLinks.refl d).insert (isLink_unionKeyword keyword) _).reference?_eq,
      hd] at href
    cases href

theorem union_definitions (h : Sorts env .empty members made parts)
    (hmade : ∀ m ∈ made, Pointed env names m)
    (hd : ∀ field ∈ d.definitions, field.2.reference? = none) (keyword : UnionKeyword) :
    ∀ field ∈ (parts.write keyword d).definitions, field.2.reference? = none := by
  intro field hfield
  rcases write_cases parts keyword d with heq | ⟨only, honly, heq⟩ | ⟨items, heq⟩
  · rw [heq] at hfield
    exact hd field hfield
  · rw [heq] at hfield
    rcases Definition.mem_definitions_merge hfield with hfield | hfield
    · rcases links_of_mem_branches (honly ▸ List.mem_singleton.2 rfl) with hschema | hlinks
      · rcases mem_schemas_of_sorts h hschema with hnone | ⟨m, hm, rfl, -⟩
        · exact absurd hnone List.not_mem_nil
        · exact (hmade m hm).definitions field hfield
      · rw [hlinks.definitions_eq] at hfield
        exact absurd hfield List.not_mem_nil
    · exact hd field hfield
  · rw [heq, ((Definition.SameLinks.refl d).insert (isLink_unionKeyword keyword) _).definitions_eq]
      at hfield
    exact hd field hfield

theorem undefined_not_mem_joinBooleans (h : "undefined" ∉ parts.tags) :
    "undefined" ∉ parts.joinBooleans.tags := by
  unfold UnionParts.joinBooleans
  split
  · unfold UnionParts.addTag
    split
    · exact h
    · simp [h]
  · exact h

theorem union_bareType (h : Sorts env .empty members made parts) (hd : d.hasType = false)
    (keyword : UnionKeyword) : (parts.write keyword d).bareType ≠ some "undefined" := by
  intro hbare
  rcases write_cases parts keyword d with heq | ⟨only, honly, heq⟩ | ⟨items, heq⟩
  · rw [heq] at hbare
    exact Definition.bareType_ne_of_hasType hd _ hbare
  · rw [heq] at hbare
    have hbare := Definition.bareType_of_merge hd hbare
    obtain hschema | ⟨values, rfl⟩ | rfl := mem_branches (honly ▸ List.mem_singleton.2 rfl)
    · rcases mem_schemas_of_sorts h hschema with hnone | ⟨m, -, -, hnone⟩
      · exact absurd hnone List.not_mem_nil
      · rw [hnone] at hbare
        cases hbare
    · exact Definition.bareType_insert_of_ne _ (by decide) _ _ hbare
    · have htags := Definition.bareType_setTypes rfl hbare
      refine undefined_not_mem_joinBooleans (tags_of_sorts h List.not_mem_nil) ?_
      rw [htags]
      exact List.mem_singleton.2 rfl
  · rw [heq] at hbare
    refine Definition.bareType_insert_of_ne d ?_ _ _ hbare
    cases keyword <;> decide

/-! ## All shapes -/

theorem object_links (parts : ObjectParts) (settings : Settings) (d : Definition) :
    Definition.SameLinks d (parts.write settings d) := by
  have htype : Definition.SameLinks d (if d.hasType then d else d.setType "object") := by
    split
    · exact .refl d
    · exact (Definition.SameLinks.refl d).setType _
  exact ((((htype.insertIf _ rfl _).insertIf _ rfl _).insertIf _ rfl _).insertIf _ rfl _).insertIf _
    rfl _

theorem object_type (parts : ObjectParts) (settings : Settings) (hd : d.hasType = false) :
    (parts.write settings d).find? "type" = some (.str "object") := by
  simp only [ObjectParts.write, hd]
  iterate 5 rw [Definition.find?_insertIf_of_ne _ _ (by decide)]
  exact Dict.find?_insert_self _ _ _

theorem rendered_links (h : Rendered env node ctx d shape made d')
    (hshape : ∀ members, shape ≠ .union members) : Definition.SameLinks d d' := by
  have hd := Definition.SameLinks.refl d
  cases h with
  | union => exact absurd rfl (hshape _)
  | intersection => exact hd.insert rfl _
  | tuple => exact (((hd.setType _).insert rfl _).insert rfl _).insert rfl _
  | primitive tag => exact hd.setType tag
  | literal value => exact (hd.setType _).insert rfl _
  | array element items => exact (hd.setType _).insert rfl _
  | date => exact (hd.setType _).insert rfl _
  | nonPrimitive => exact ((hd.setType _).insert rfl _).insert rfl _
  | unconstrained => exact hd
  | unsupported => exact hd
  | enum declaration => exact (hd.setTypes _).insertIf _ rfl _
  | emptyObject => exact (hd.setType _).insert rfl _
  | typeof => exact hd.insert rfl _
  | function => exact object_links _ _ d
  | map key value items =>
      cases key <;> exact (hd.setType _).insert rfl _
  | abstract => exact hd.insert rfl _
  | object => exact object_links _ _ d

theorem enum_bareType (members : List EnumMember) (hd : d.hasType = false) :
    (EnumDeclaration.describe members d).bareType ≠ some "undefined" := by
  intro hbare
  unfold EnumDeclaration.describe Definition.insertIf at hbare
  dsimp only at hbare
  split at hbare
  · exact absurd hbare (Definition.bareType_insert_of_ne _ (by decide) _ _)
  · rename_i hempty
    have hnil : EnumDeclaration.values members = [] := by simpa using hempty
    have htypes := Definition.bareType_setTypes hd hbare
    rw [hnil] at htypes
    cases htypes

/-- Only the shape of undefined gives a definition that says undefined and nothing else. -/
theorem rendered_bareType (h : Rendered env node ctx d shape made d') (hd : d.hasType = false)
    (hbare : d'.bareType = some "undefined") : shape = .primitive "undefined" := by
  have hobject (parts : ObjectParts) :
      (parts.write env.settings d).bareType ≠ some "undefined" := by
    intro hbare
    have htype := (Definition.bareType_eq_some_iff.1 hbare).1
    rw [object_type parts env.settings hd] at htype
    simp at htype
  have hinsert {key : String} (hkey : key ≠ "type") (d : Definition) (value : Json) :
      Definition.bareType (d.insert key value) ≠ some "undefined" :=
    Definition.bareType_insert_of_ne d hkey value _
  cases h with
  | union hsorts => exact absurd hbare (union_bareType hsorts hd _)
  | primitive tag => rw [Definition.bareType_setType hbare]
  | unconstrained | unsupported => exact absurd hbare (Definition.bareType_ne_of_hasType hd _)
  | enum declaration => exact absurd hbare (enum_bareType _ hd)
  | function | object => exact absurd hbare (hobject _)
  | map key value items => cases key <;> exact absurd hbare (hinsert (by decide) _ _)
  | _ => exact absurd hbare (hinsert (by decide) _ _)

theorem completed_collapses (hnode : env.graph.typeNode type = .ok node)
    (h : Completed env node ctx d made d') (hmade : ∀ m ∈ made, Pointed env names m)
    (hd : d.reference? = none) : CollapsesWithin env names type d' := by
  cases h with
  | annotated =>
      intro ref href
      rw [hd] at href
      cases href
  | @shaped shape _ _ _ hshape hrendered =>
      have htells := Shape.tells_ofNode hshape
      cases shape with
      | union members =>
          cases hrendered with
          | union hsorts => exact union_collapses hnode (htells.union members rfl) hsorts hmade hd _
      | _ =>
          intro ref href
          rw [(rendered_links hrendered (by simp)).reference?_eq, hd] at href
          cases href

theorem completed_definitions (h : Completed env node ctx d made d')
    (hmade : ∀ m ∈ made, Pointed env names m)
    (hd : ∀ field ∈ d.definitions, field.2.reference? = none) :
    ∀ field ∈ d'.definitions, field.2.reference? = none := by
  cases h with
  | annotated => exact hd
  | @shaped shape _ _ _ hshape hrendered =>
      cases shape with
      | union members =>
          cases hrendered with
          | union hsorts => exact union_definitions hsorts hmade hd _
      | _ => rwa [(rendered_links hrendered (by simp)).definitions_eq]

theorem completed_bareType (h : Completed env node ctx d made d')
    (hbare : d'.bareType = some "undefined") :
    node.kind = .undefined ∨ d.bareType = some "undefined" := by
  cases h with
  | annotated => exact .inr hbare
  | shaped htype hshape hrendered =>
      exact .inl ((Shape.tells_ofNode hshape).undefined (rendered_bareType hrendered htype hbare))

end Schema

end TypeSchema
