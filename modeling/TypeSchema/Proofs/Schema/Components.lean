import TypeSchema.Proofs.Graph.Closed
import TypeSchema.Proofs.Validation.Names
import TypeSchema.Schema.OfType

/-!
# Components of types

The types that are described to describe a type, whatever the place in which it stands.
-/

namespace TypeSchema

/-! ## Shapes -/

namespace Shape

/-- The types that a shape holds. -/
def types : Shape → List TypeId
  | .union members => members
  | .intersection members => members
  | .tuple elements => elements
  | .array element => [element]
  | .map _ value => [value]
  | _ => []

def properties : Shape → List SymbolId
  | .object properties => properties
  | _ => []

structure Mentioned (g : Graph) (shape : Shape) : Prop where
  types : shape.types ⊆ g.mentionedTypes
  properties : shape.properties ⊆ g.mentionedSymbols

variable {g : Graph} {node : TypeNode} {reffed : Option SymbolId} {shape : Shape}

theorem mentioned_of_nil (htypes : shape.types = []) (hproperties : shape.properties = []) :
    Mentioned g shape := by
  constructor
  · rw [htypes]
    exact List.nil_subset _
  · rw [hproperties]
    exact List.nil_subset _

theorem mentioned_arrayOf {element : Option TypeId}
    (h : ∀ id ∈ element, id ∈ g.mentionedTypes) : Mentioned g (arrayOf element) := by
  cases element with
  | none => exact mentioned_of_nil rfl rfl
  | some id => exact ⟨List.cons_subset.2 ⟨h id rfl, List.nil_subset _⟩, List.nil_subset _⟩

theorem mentioned_ofKind (hnode : node ∈ g.types.values) (name reffedName : Option String) :
    Mentioned g (ofKind name reffedName node.kind) := by
  have hmentioned {type : TypeId} (h : type ∈ node.kind.types) : type ∈ g.mentionedTypes :=
    Graph.mem_mentionedTypes_of_type hnode h
  cases hkind : node.kind with
  | object type =>
      have hindex : ∀ id ∈ type.numberIndex, id ∈ g.mentionedTypes := by
        intro id hid
        refine hmentioned ?_
        rw [hkind]
        simp [TypeKind.types, ObjectType.types, Option.mem_def.1 hid]
      simp only [ofKind]
      split
      · exact mentioned_of_nil rfl rfl
      · split
        · refine mentioned_arrayOf fun id hid => ?_
          rcases Option.or_eq_some_iff.1 hid with hargument | ⟨-, hindexed⟩
          · refine hmentioned ?_
            rw [hkind]
            simp [TypeKind.types, ObjectType.types, List.mem_of_mem_head? hargument]
          · exact hindex id hindexed
        · exact mentioned_arrayOf hindex
  | _ => exact mentioned_of_nil rfl rfl

theorem mentioned_ofRoot (hnode : node ∈ g.types.values) (h : ofRoot g node reffed = .ok shape) :
    Mentioned g shape := by
  unfold ofRoot at h
  split at h
  · cases h
    exact mentioned_of_nil rfl rfl
  · obtain ⟨name, -, h⟩ := outcome_bind_eq_ok.1 h
    split at h
    · obtain ⟨reffedName, -, hpure⟩ := outcome_bind_eq_ok.1 h
      cases hpure
      exact mentioned_ofKind hnode name reffedName
    · cases h
      exact mentioned_ofKind hnode name none

theorem mentioned_mapOf {declaration : Option Declaration} {stringIndex numberIndex : Option TypeId}
    (hdeclaration : ∀ d ∈ declaration, d ∈ g.declarations.values)
    (hstring : ∀ id ∈ stringIndex, id ∈ g.mentionedTypes)
    (hnumber : ∀ id ∈ numberIndex, id ∈ g.mentionedTypes)
    (h : mapOf g node declaration stringIndex numberIndex = .ok (some shape)) :
    Mentioned g shape := by
  have hmap {key : IndexKey} {value : TypeId} (hvalue : value ∈ g.mentionedTypes) :
      Mentioned g (map key value) :=
    ⟨List.cons_subset.2 ⟨hvalue, List.nil_subset _⟩, List.nil_subset _⟩
  unfold mapOf at h
  split at h
  · rename_i parameters value hmembers
    obtain ⟨key, -, hpure⟩ := outcome_bind_eq_ok.1 h
    cases hpure
    cases declaration with
    | none => cases hmembers
    | some d =>
        rw [membersOf] at hmembers
        refine hmap (Graph.mem_mentionedTypes_of_declaration (hdeclaration d rfl) ?_)
        simp [Declaration.types, hmembers, Member.types]
  · split at h
    · cases h
      exact hmap (hstring _ rfl)
    · cases h
      exact hmap (hnumber _ rfl)
    · cases h
  · cases h

theorem objectParts_subset (kind : TypeKind) :
    (objectParts kind).1 ⊆ kind.properties ∧ (∀ id ∈ (objectParts kind).2.1, id ∈ kind.types) ∧
      ∀ id ∈ (objectParts kind).2.2, id ∈ kind.types := by
  cases kind with
  | object type =>
      simp +contextual [objectParts, TypeKind.properties, TypeKind.types, ObjectType.types]
  | _ => simp [objectParts]

theorem mentioned_ofClass (hnode : node ∈ g.types.values) {declaration : Option Declaration}
    (hdeclaration : ∀ d ∈ declaration, d ∈ g.declarations.values)
    (h : ofClass g node declaration = .ok shape) : Mentioned g shape := by
  have hparts := objectParts_subset node.kind
  have hunmapped : Mentioned g (if declaration.any (·.isAbstract) then abstract
      else object (objectParts node.kind).1) := by
    split
    · exact mentioned_of_nil rfl rfl
    · refine ⟨List.nil_subset _, fun id hid => Graph.mem_mentionedSymbols_of_type hnode ?_⟩
      exact List.mem_append_right _ (hparts.1 hid)
  unfold ofClass at h
  split at h
  · cases h
    exact mentioned_of_nil rfl rfl
  · dsimp only at h
    split at h <;> obtain ⟨mapped, hmapped, h⟩ := outcome_bind_eq_ok.1 h <;> split at h
    · cases h
      exact mentioned_mapOf hdeclaration
        (fun id hid => Graph.mem_mentionedTypes_of_type hnode (hparts.2.1 id hid))
        (fun id hid => Graph.mem_mentionedTypes_of_type hnode (hparts.2.2 id hid)) hmapped
    · cases h
      exact hunmapped
    · cases hmapped
    · cases h
      exact hunmapped

theorem mentioned_ofNamed (hnode : node ∈ g.types.values) (h : ofNamed g node reffed = .ok shape) :
    Mentioned g shape := by
  have hundeclared : ∀ d ∈ (none : Option Declaration), d ∈ g.declarations.values :=
    fun d hd => by cases hd
  unfold ofNamed at h
  split at h
  · obtain ⟨root, hroot, h⟩ := outcome_bind_eq_ok.1 h
    split at h
    · exact mentioned_ofClass hnode hundeclared h
    · cases h
      exact mentioned_ofRoot hnode hroot
  · obtain ⟨symbol, -, h⟩ := outcome_bind_eq_ok.1 h
    split at h
    · exact mentioned_ofRoot hnode h
    · obtain ⟨declaration, hdeclared, h⟩ := outcome_bind_eq_ok.1 h
      split at h
      · split at h
        · cases h
          exact mentioned_of_nil rfl rfl
        · split at h
          · cases h
            exact mentioned_of_nil rfl rfl
          · refine mentioned_ofClass hnode (fun d hd => ?_) h
            cases hd
            exact Graph.mem_declarations hdeclared
      · split at h
        · cases h
          exact mentioned_of_nil rfl rfl
        · exact mentioned_ofClass hnode hundeclared h

/-- What a shape holds is mentioned in the graph. -/
theorem mentioned_ofNode (hnode : node ∈ g.types.values) (h : ofNode g node reffed = .ok shape) :
    Mentioned g shape := by
  have hmembers {types : List TypeId} (htypes : node.kind.types = types) :
      types ⊆ g.mentionedTypes :=
    fun _ hid => Graph.mem_mentionedTypes_of_type hnode (htypes ▸ hid)
  unfold ofNode at h
  split at h
  · rename_i hkind
    cases h
    exact ⟨hmembers (by rw [hkind]; rfl), List.nil_subset _⟩
  · rename_i hkind
    cases h
    exact ⟨hmembers (by rw [hkind]; rfl), List.nil_subset _⟩
  · rename_i hkind
    cases h
    exact ⟨hmembers (by rw [hkind]; rfl), List.nil_subset _⟩
  · exact mentioned_ofNamed hnode h
  · exact mentioned_ofNamed hnode h
  · exact mentioned_ofRoot hnode h

end Shape

namespace Schema

/-- The types that are described to render a shape, and the literals of a union. -/
def componentsOf (env : Environment) (node : TypeNode) : Shape → List TypeId
  | .union members => members
  | .intersection members => members
  | .tuple elements => elements
  | .array element => [element]
  | .map _ value => [value]
  | .abstract => (subtypes env node).toOption.getD [] |>.filterMap env.table.all.find?
  | .object properties => properties.filterMap fun id => (env.graph.symbols.find? id).bind (·.type)
  | _ => []

/-- Union and intersection members, elements of tuples and arrays, values of maps, types of
properties, and the types that extend an abstract one. -/
def components (env : Environment) (type : TypeId) : List TypeId :=
  match env.graph.types.find? type with
  | some node =>
    match Shape.ofNode env.graph node none with
    | .ok shape => componentsOf env node shape
    | .error _ => []
  | none => []

variable {env : Environment} {node : TypeNode} {type : TypeId} {shape : Shape}

theorem componentsOf_subset (hnode : env.graph.typeNode type = .ok node)
    {reffed : Option SymbolId} (hshape : Shape.ofNode env.graph node reffed = .ok shape) :
    componentsOf env node shape ⊆ components env type := by
  have hfind : env.graph.types.find? type = some node :=
    Dict.mem_entries_iff.1 (Graph.mem_types hnode)
  by_cases hnumber : node.kind = .number
  · -- of all types numbers alone depend on the place, and have no components anywhere
    have hroot : Shape.ofNode env.graph node reffed = Shape.ofRoot env.graph node reffed := by
      unfold Shape.ofNode
      rw [hnumber]
    have hliteral : Shape.literalValue node = none := by
      unfold Shape.literalValue
      rw [hnumber]
    rw [hroot, Shape.ofRoot, hliteral] at hshape
    obtain ⟨name, -, hshape⟩ := outcome_bind_eq_ok.1 hshape
    rw [hnumber] at hshape
    obtain ⟨written, -, hpure⟩ := outcome_bind_eq_ok.1 hshape
    cases hpure
    exact List.nil_subset _
  · rw [ofNode_reffed env.graph hnumber reffed none] at hshape
    rw [components, hfind]
    dsimp only
    rw [hshape]
    exact List.Subset.refl _

/-- The types that have names are mentioned in the graph. -/
def TableMentioned (env : Environment) : Prop :=
  ∀ name type, env.table.all.find? name = some type → type ∈ env.graph.mentionedTypes

theorem componentsOf_mentioned (htable : TableMentioned env) (hshape : shape.Mentioned env.graph) :
    componentsOf env node shape ⊆ env.graph.mentionedTypes := by
  intro child hchild
  cases shape with
  | abstract =>
      obtain ⟨name, -, hfind⟩ := List.mem_filterMap.1 hchild
      exact htable name child hfind
  | object properties =>
      obtain ⟨id, -, hfind⟩ := List.mem_filterMap.1 hchild
      obtain ⟨symbol, hsymbol, htype⟩ := Option.bind_eq_some_iff.1 hfind
      exact Graph.mem_mentionedTypes_of_symbol
        (List.mem_map_of_mem (Dict.mem_entries_iff.2 hsymbol)) htype
  | _ => exact hshape.types hchild

theorem components_mentioned (htable : TableMentioned env) :
    components env type ⊆ env.graph.mentionedTypes := by
  intro child hchild
  unfold components at hchild
  split at hchild
  · rename_i node hfind
    split at hchild
    · rename_i shape hshape
      have hnode : node ∈ env.graph.types.values :=
        List.mem_map_of_mem (Dict.mem_entries_iff.2 hfind)
      exact componentsOf_mentioned htable (Shape.mentioned_ofNode hnode hshape) hchild
    · exact absurd hchild List.not_mem_nil
  · exact absurd hchild List.not_mem_nil

end Schema

end TypeSchema
