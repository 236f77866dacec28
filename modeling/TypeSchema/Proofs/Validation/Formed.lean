import TypeSchema.Proofs.Document.Assembled
import TypeSchema.Proofs.Enums.Rendered
import TypeSchema.Proofs.Schema.Guarantee
import TypeSchema.Proofs.Schema.Limit
import TypeSchema.Proofs.SymbolTable.Collected
import TypeSchema.Proofs.Validation.Form
import TypeSchema.Proofs.Validation.Shapes

/-!
# Documents are well-formed

Every schema in the document of a program without annotations keeps to the form that draft 04 gives
for its keywords.  There is leeway for three degenerate types, which have no better form: undefined
where it is not the member of a union, tuples without elements, and intersections without members.
-/

namespace TypeSchema

open Json (simpleTypes)

/-! ## Constants -/

def Json.isConstant : Json → Bool
  | .bool _ | .num _ | .str _ => true
  | _ => false

/-- The constant of an enum literal, if the type is one, is a text, a truth value or a number. -/
def TypeNode.hasConstant (node : TypeNode) : Bool :=
  match node.kind with
  | .enumLiteral value => value.isConstant
  | _ => true

/-- The constants of enums and of their literals are texts, truth values or numbers. -/
structure ScalarEnums (g : Graph) : Prop where
  members : ∀ declaration ∈ g.declarations.values, ∀ m ∈ declaration.enumMembers,
    m.constantValue.all Json.isConstant = true
  literals : ∀ node ∈ g.types.values, node.hasConstant = true

theorem Json.isScalar_of_isConstant {value : Json} (h : value.isConstant = true) :
    value.isScalar = true := by
  cases value with
  | bool | num | str => rfl
  | null | arr | obj => cases h

theorem isScalar_literalValue {node : TypeNode} {value : Json} (hnode : node.hasConstant = true)
    (h : Shape.literalValue node = some value) : value.isScalar = true := by
  have hnumber (x : Option Binary64) : (Definition.numberValue x).isScalar = true := by
    unfold Definition.numberValue
    split
    · rfl
    · split <;> rfl
  unfold Shape.literalValue at h
  split at h
  · cases h
    rfl
  · cases h
    exact hnumber _
  · cases h
    rfl
  · cases h
    exact hnumber _
  · rename_i hkind
    cases h
    rw [TypeNode.hasConstant, hkind] at hnode
    exact Json.isScalar_of_isConstant hnode
  · cases h

theorem EnumMember.Has.isScalar {m : EnumMember} {value : Json}
    (hm : m.constantValue.all Json.isConstant = true) (h : m.Has value) :
    value.isScalar = true := by
  cases h with
  | constant h =>
      rw [h] at hm
      exact Json.isScalar_of_isConstant hm
  | initializer _ _ _ hscalar => exact hscalar

theorem primitiveTypeOf_mem (value : Json) : Definition.primitiveTypeOf value ∈ simpleTypes := by
  cases value <;> simp [Definition.primitiveTypeOf, simpleTypes]

namespace EnumDeclaration

theorem isScalar_values {members : List EnumMember}
    (h : ∀ m ∈ members, m.constantValue.all Json.isConstant = true) :
    ∀ value ∈ values members, value.isScalar = true := by
  intro value hvalue
  obtain ⟨m, hm, hhas⟩ := (collects members).has value hvalue
  exact hhas.isScalar (h m hm)

theorem types_spec (values : List Json) :
    (types values).Nodup ∧ ∀ tag ∈ types values, tag ∈ simpleTypes := by
  have hnames := namesTypes values
  refine ⟨hnames.nodup, fun tag htag => ?_⟩
  obtain ⟨value, -, rfl⟩ := List.mem_map.1 ((hnames.mem_iff tag).1 htag)
  exact primitiveTypeOf_mem value

end EnumDeclaration

namespace Schema

open Json (FieldFormed fieldFormed_value fieldFormed_arr fieldFormed_schema fieldFormed_named
  isBranches_definitions keywordFormed_union keywordFormed_other isEnum_sort wellFormed_bool)

/-! ## Leeway -/

def IsUndefined (env : Environment) (type : TypeId) : Prop :=
  ∃ node, env.graph.typeNode type = .ok node ∧ node.kind = .undefined

/-- The type stands somewhere else than as the member of a union: it has a name of its own, it is
the type of a symbol, or it is part of a type that is no union. -/
inductive StandsAlone (env : Environment) : TypeId → Prop where
  | named {type node} (hnode : env.graph.typeNode type = .ok node) (h : node.symbol ≠ none) :
      StandsAlone env type
  | ofSymbol {type symbol} (hsymbol : symbol ∈ env.graph.symbols.values)
      (htype : symbol.type = some type) : StandsAlone env type
  | part {whole node reffed shape type} (hnode : env.graph.typeNode whole = .ok node)
      (hshape : Shape.ofNode env.graph node reffed = .ok shape)
      (hunion : ∀ members, shape ≠ .union members) (h : type ∈ componentsOf env node shape) :
      StandsAlone env type

/-- The leeway that the degenerate types of a program need. -/
def leewayOf (env : Environment) : Leeway where
  undefinedType := ∃ type, IsUndefined env type ∧ StandsAlone env type
  emptyAnyOf := ∃ node ∈ env.graph.types.values, node.kind = .tuple []
  emptyAllOf := ∃ node ∈ env.graph.types.values, node.kind = .intersection []

/-- The definition is well-formed, or it is that of undefined. -/
def Formed (env : Environment) (m : Described) : Prop :=
  m.definition.WellFormed (leewayOf env) ∨
    m.definition = Definition.ofType "undefined" ∧ IsUndefined env m.type

variable {env : Environment} {leeway : Leeway} {type : TypeId} {node : TypeNode} {ctx : Context}
  {name : String} {d d' : Definition} {made : List Described}

theorem Formed.alone {m : Described} (h : Formed env m) (halone : StandsAlone env m.type) :
    m.definition.WellFormed (leewayOf env) := by
  rcases h with hformed | ⟨heq, hundefined⟩
  · exact hformed
  · rw [heq]
    exact Definition.wellFormed_undefined ⟨m.type, hundefined, halone⟩

theorem Formed.of_bareType {m : Described} (h : Formed env m)
    (hbare : m.definition.bareType ≠ some "undefined") :
    m.definition.WellFormed (leewayOf env) := by
  rcases h with hformed | ⟨heq, -⟩
  · exact hformed
  · rw [heq] at hbare
    exact absurd rfl hbare

/-! ## Unions -/

structure PartsFormed (leeway : Leeway) (parts : UnionParts) : Prop where
  values : ∀ value ∈ parts.values, value.isScalar = true
  nodup : parts.tags.Nodup
  tags : ∀ tag ∈ parts.tags, tag ∈ simpleTypes
  schemas : ∀ schema ∈ parts.schemas, schema.WellFormed leeway

namespace PartsFormed

variable {parts : UnionParts}

theorem empty : PartsFormed leeway .empty :=
  ⟨fun _ h => absurd h List.not_mem_nil, List.nodup_nil, fun _ h => absurd h List.not_mem_nil,
    fun _ h => absurd h List.not_mem_nil⟩

theorem addValue (h : PartsFormed leeway parts) {value : Json} (hvalue : value.isScalar = true) :
    PartsFormed leeway (parts.addValue value) := by
  unfold UnionParts.addValue
  split
  · exact h
  · exact ⟨List.forall_mem_append.2 ⟨h.values, List.forall_mem_singleton.2 hvalue⟩, h.nodup, h.tags,
      h.schemas⟩

theorem addTag (h : PartsFormed leeway parts) {tag : String} (htag : tag ∈ simpleTypes) :
    PartsFormed leeway (parts.addTag tag) := by
  unfold UnionParts.addTag
  split
  · exact h
  · rename_i hnew
    refine ⟨h.values, ?_,
      List.forall_mem_append.2 ⟨h.tags, List.forall_mem_singleton.2 htag⟩, h.schemas⟩
    dsimp only
    rw [← List.concat_eq_append]
    exact h.nodup.concat hnew

theorem addSchema (h : PartsFormed leeway parts) (hd : d.WellFormed leeway) :
    PartsFormed leeway (parts.addSchema d) :=
  ⟨h.values, h.nodup, h.tags,
    List.forall_mem_append.2 ⟨h.schemas, List.forall_mem_singleton.2 hd⟩⟩

theorem joinBooleans (h : PartsFormed leeway parts) : PartsFormed leeway parts.joinBooleans := by
  unfold UnionParts.joinBooleans
  split
  · obtain ⟨-, hnodup, htags, hschemas⟩ := h.addTag (show "boolean" ∈ simpleTypes by decide)
    exact ⟨fun _ h => absurd h List.not_mem_nil, hnodup, htags, hschemas⟩
  · exact h

end PartsFormed

theorem sorts_formed (henums : ScalarEnums env.graph) {parts parts' : UnionParts}
    {members : List TypeId} (h : Sorts env parts members made parts')
    (hmade : ∀ m ∈ made, Formed env m) (hparts : PartsFormed (leewayOf env) parts) :
    PartsFormed (leewayOf env) parts' := by
  induction h with
  | nil => exact hparts
  | value hnode hvalue _ ih =>
      have hconstant := henums.literals _ (List.mem_map_of_mem (Graph.mem_types hnode))
      exact ih hmade (hparts.addValue (isScalar_literalValue hconstant hvalue))
  | absent _ _ _ ih => exact ih (List.forall_mem_cons.1 hmade).2 hparts
  | tag _ hbare hne _ ih =>
      obtain ⟨hmember, hothers⟩ := List.forall_mem_cons.1 hmade
      have hformed := hmember.of_bareType fun hundefined =>
        hne (Option.some.inj (hbare.symm.trans hundefined))
      exact ih hothers (hparts.addTag (hformed.bareType hbare hne))
  | schema _ hbare _ ih =>
      obtain ⟨hmember, hothers⟩ := List.forall_mem_cons.1 hmade
      have hformed := hmember.of_bareType fun hundefined => by cases hbare.symm.trans hundefined
      exact ih hothers (hparts.addSchema hformed)

theorem commonType_mem {values : List Json} {tag : String}
    (h : UnionParts.commonType values = some tag) : tag ∈ simpleTypes := by
  unfold UnionParts.commonType at h
  split at h
  · cases h
  · split at h
    · rename_i hfirst
      cases h
      rcases hfirst.1 with heq | heq | heq <;> rw [heq] <;> decide
    · cases h

theorem enumSchema_formed {values : List Json} (hne : values ≠ [])
    (hvalues : ∀ value ∈ values, value.isScalar = true) :
    (UnionParts.enumSchema values).WellFormed leeway := by
  have hform : FieldFormed leeway "enum" (.arr (EnumValues.sort values)) :=
    fieldFormed_value rfl (isEnum_sort hne hvalues)
  unfold UnionParts.enumSchema
  dsimp only
  split
  · rename_i tag htag
    exact (Definition.wellFormed_empty.setType (commonType_mem htag)).insert hform
  · exact Definition.wellFormed_empty.insert hform

theorem branches_formed {parts : UnionParts} (h : PartsFormed leeway parts) :
    ∀ branch ∈ parts.branches, branch.WellFormed leeway := by
  have hjoined := h.joinBooleans
  intro branch hbranch
  simp only [UnionParts.branches, List.mem_append] at hbranch
  obtain (hschema | hvalues) | htags := hbranch
  · exact hjoined.schemas branch hschema
  · split at hvalues
    · exact absurd hvalues List.not_mem_nil
    · rename_i hne
      rw [List.mem_singleton.1 hvalues]
      exact enumSchema_formed (fun hnil => hne (List.isEmpty_iff.2 hnil)) hjoined.values
  · split at htags
    · exact absurd htags List.not_mem_nil
    · rw [List.mem_singleton.1 htags]
      exact Definition.wellFormed_empty.setTypes hjoined.nodup hjoined.tags

theorem union_formed {parts : UnionParts} (keyword : UnionKeyword) (h : PartsFormed leeway parts)
    (hd : d.WellFormed leeway) : (parts.write keyword d).WellFormed leeway := by
  have hbranches := branches_formed h
  unfold UnionParts.write
  split
  · exact hd
  · rename_i only heq
    exact hd.merge (hbranches only (by rw [heq]; exact List.mem_singleton.2 rfl))
  · rename_i hne _
    have hform : Json.KeywordFormed leeway keyword.text
        (.arr (parts.branches.map Definition.toJson)) :=
      keywordFormed_union keyword (isBranches_definitions fun hnil => hne hnil)
    refine hd.insert (fieldFormed_arr (by cases keyword <;> decide) hform fun item hitem => ?_)
    obtain ⟨branch, hbranch, rfl⟩ := List.mem_map.1 hitem
    exact hbranches branch hbranch

/-! ## Objects -/

structure PropertiesFormed (leeway : Leeway) (parts : ObjectParts) : Prop where
  properties : ∀ field ∈ parts.properties.entries, field.2.WellFormed leeway
  required : parts.required.Pairwise (· < ·)

theorem PropertiesFormed.empty : PropertiesFormed leeway .empty :=
  ⟨fun _ h => absurd h List.not_mem_nil, List.Pairwise.nil⟩

theorem PropertiesFormed.add {parts : ObjectParts} (h : PropertiesFormed leeway parts)
    (hd : d.WellFormed leeway) (name : String) (isRequired : Bool) :
    PropertiesFormed leeway (parts.add name d isRequired) := by
  refine ⟨fun field hfield => ?_, ?_⟩
  · rcases Entries.mem_of_mem_insert hfield with rfl | hold
    · exact hd
    · exact h.properties field hold
  · unfold ObjectParts.add
    dsimp only
    split
    · exact Names.pairwise_insert name h.required
    · exact h.required

theorem ofProperty_formed {id : SymbolId} (h : OfProperty env id made (some d))
    (hmade : ∀ m ∈ made, Formed env m) : d.WellFormed (leewayOf env) := by
  cases h with
  | untyped => exact Definition.wellFormed_empty
  | kept place =>
      obtain ⟨property, hproperty, htype⟩ := place.hasType
      have halone : StandsAlone env _ :=
        .ofSymbol (List.mem_map_of_mem (Graph.mem_symbols hproperty)) htype
      have hformed := (hmade _ List.mem_cons_self).alone halone
      unfold withDefault
      split
      · exact hformed.plain rfl (by decide)
      · exact hformed

theorem gathers_formed {parts parts' : ObjectParts} {properties : List SymbolId}
    (h : Gathers env parts properties made parts') (hmade : ∀ m ∈ made, Formed env m)
    (hparts : PropertiesFormed (leewayOf env) parts) : PropertiesFormed (leewayOf env) parts' := by
  induction h with
  | nil => exact hparts
  | dropped _ _ ih => exact ih (List.forall_mem_append.1 hmade).2 hparts
  | added isRequired _ hd _ ih =>
      obtain ⟨hown, hothers⟩ := List.forall_mem_append.1 hmade
      exact ih hothers (hparts.add (ofProperty_formed hd hown) _ isRequired)

theorem object_formed {parts : ObjectParts} (settings : Settings)
    (h : PropertiesFormed leeway parts) (hd : d.WellFormed leeway) :
    (parts.write settings d).WellFormed leeway := by
  have hproperties : FieldFormed leeway "properties" (.ofDict parts.properties) :=
    fieldFormed_named (by decide) h.properties
  have hextra : FieldFormed leeway "additionalProperties" (.bool false) :=
    fieldFormed_schema (by decide) (by decide) rfl (wellFormed_bool false)
  have hfree {keyword : String} {value : Json} (hplain : Json.isPlainKeyword keyword = true)
      (hkeyword : keyword ∉ Json.formedKeywords) : FieldFormed leeway keyword value :=
    fieldFormed_value hplain (keywordFormed_other hkeyword)
  have htype : Definition.WellFormed leeway (if d.hasType then d else d.setType "object") := by
    split
    · exact hd
    · exact hd.setType (by decide)
  refine ((((htype.insertIf fun _ => hproperties).insertIf fun _ => hfree rfl (by decide)).insertIf
    fun _ => hextra).insertIf fun _ => hfree rfl (by decide)).insertIf fun hrequired => ?_
  simp only [Bool.and_eq_true, Bool.not_eq_true', List.isEmpty_eq_false_iff] at hrequired
  refine fieldFormed_value rfl ⟨parts.required, rfl, hrequired.2, ?_⟩
  exact h.required.imp fun hlt => String.ne_of_lt hlt

/-! ## Shapes -/

theorem isBranches_made {P : Prop} (h : made = [] → P) :
    Json.IsBranches P (.arr (definitions made)) := by
  have hbranches : Json.IsBranches P (.arr ((made.map (·.definition)).map Definition.toJson)) :=
    isBranches_definitions fun hnil => h (List.map_eq_nil_iff.1 hnil)
  rwa [List.map_map] at hbranches

theorem ofParts_formed {types : List TypeId} (h : ofParts env types made)
    (halone : ∀ type ∈ types, StandsAlone env type) (hmade : ∀ m ∈ made, Formed env m) :
    ∀ item ∈ definitions made, item.WellFormed (leewayOf env) := by
  intro item hitem
  obtain ⟨m, hm, rfl⟩ := List.mem_map.1 hitem
  refine (hmade m hm).alone (halone m.type ?_)
  rw [h.types_eq]
  exact List.mem_map_of_mem hm

theorem ofParts_eq_nil {types : List TypeId} (h : ofParts env types made) (hnil : made = []) :
    types = [] := by
  rw [h.types_eq, hnil]
  rfl

theorem componentsOf_abstract {names : List String} {types : List TypeId}
    (hnames : subtypes env node = .ok names)
    (htypes : names.map env.table.all.find? = types.map some) :
    componentsOf env node .abstract = types := by
  have hfound : (names.map env.table.all.find?).filterMap id = types := by
    rw [htypes]
    simp
  rw [List.filterMap_map] at hfound
  simp only [componentsOf, hnames]
  exact hfound

/-- Only undefined itself gives what is not well-formed, and then only if there is no leeway. -/
theorem rendered_formed (henums : ScalarEnums env.graph)
    (hheirs : ∀ names, subtypes env node = .ok names → names ≠ [])
    (hnode : env.graph.typeNode type = .ok node) {shape : Shape}
    (hshape : Shape.ofNode env.graph node ctx.reffed = .ok shape)
    (h : Rendered env node ctx d shape made d') (hmade : ∀ m ∈ made, Formed env m)
    (hd : d.WellFormed (leewayOf env)) :
    d'.WellFormed (leewayOf env) ∨ node.kind = .undefined ∧ d' = d.setType "undefined" := by
  have hfits := Shape.fits_ofNode hshape
  have hmem : node ∈ env.graph.types.values := List.mem_map_of_mem (Graph.mem_types hnode)
  have halone (hunion : ∀ members, shape ≠ .union members) :
      ∀ type ∈ componentsOf env node shape, StandsAlone env type :=
    fun _ => .part hnode hshape hunion
  have hempty : FieldFormed (leewayOf env) "properties" (.obj []) :=
    fieldFormed_named (by decide) fun _ h => absurd h List.not_mem_nil
  cases h with
  | union hsorts =>
      exact .inl (union_formed _ (sorts_formed henums hsorts hmade .empty) hd)
  | @intersection members _ hparts =>
      have hform : Json.KeywordFormed (leewayOf env) "allOf" (.arr (definitions made)) :=
        isBranches_made fun hnil => ⟨node, hmem, by rw [hfits, ofParts_eq_nil hparts hnil]⟩
      exact .inl (hd.insert (fieldFormed_arr (by decide) hform
        (ofParts_formed hparts (halone (by simp)) hmade)))
  | @tuple elements _ hparts =>
      have hitems := ofParts_formed hparts (halone (by simp)) hmade
      have hform : Json.KeywordFormed (leewayOf env) "anyOf" (.arr (definitions made)) :=
        isBranches_made fun hnil => ⟨node, hmem, by rw [hfits, ofParts_eq_nil hparts hnil]⟩
      have hrest : Definition.WellFormed (leewayOf env)
          (Dict.empty.insert "anyOf" (.arr (definitions made))) :=
        Definition.wellFormed_empty.insert (fieldFormed_arr (by decide) hform hitems)
      have hcount : Definition.WellFormed (leewayOf env)
          ((d.setType "array").insert "minItems" (Json.nat (definitions made).length)) :=
        (hd.setType (by decide)).plain rfl (by decide)
      exact .inl ((hcount.insert (fieldFormed_arr (by decide) (keywordFormed_other (by decide))
        hitems)).insert (fieldFormed_schema (by decide) (by decide) rfl hrest))
  | primitive tag =>
      rcases hfits with htag | ⟨rfl, hkind⟩
      · have hsimple : ∀ tag ∈ Shape.primitiveTags, tag ∈ simpleTypes := by decide
        exact .inl (hd.setType (hsimple tag htag))
      · exact .inr ⟨hkind, rfl⟩
  | literal value =>
      have hform : Json.IsEnum (.arr [value]) :=
        ⟨[value], rfl, List.cons_ne_nil _ _, List.pairwise_singleton _ _⟩
      exact .inl ((hd.setType (primitiveTypeOf_mem value)).insert (fieldFormed_value rfl hform))
  | array element items =>
      have hitems := (hmade _ List.mem_cons_self).alone (halone (by simp) _ List.mem_cons_self)
      exact .inl ((hd.setType (by decide)).insert
        (fieldFormed_schema (by decide) (by decide) rfl hitems))
  | date => exact .inl ((hd.setType (by decide)).plain rfl (by decide))
  | nonPrimitive =>
      exact .inl (((hd.setType (by decide)).insert hempty).insert
        (fieldFormed_schema (by decide) (by decide) rfl (wellFormed_bool true)))
  | unconstrained | unsupported => exact .inl hd
  | enum declaration =>
      have hscalar := EnumDeclaration.isScalar_values (henums.members declaration hfits)
      obtain ⟨hnodup, htags⟩ := EnumDeclaration.types_spec
        (EnumDeclaration.values declaration.enumMembers)
      refine .inl ((hd.setTypes hnodup htags).insertIf fun hne => fieldFormed_value rfl ?_)
      simp only [Bool.not_eq_true', List.isEmpty_eq_false_iff] at hne
      exact isEnum_sort hne hscalar
  | emptyObject => exact .inl ((hd.setType (by decide)).insert hempty)
  | typeof => exact .inl (hd.plain rfl (by decide))
  | function => exact .inl (object_formed _ .empty hd)
  | map key value items =>
      have hitems := (hmade _ List.mem_cons_self).alone (halone (by simp) _ List.mem_cons_self)
      cases key <;> exact .inl ((hd.setType (by decide)).insert
        (fieldFormed_schema (by decide) (by decide) rfl hitems))
  | @abstract names types _ hnames htypes hparts =>
      have hne : made ≠ [] := by
        intro hnil
        rw [ofParts_eq_nil hparts hnil] at htypes
        exact hheirs names hnames (List.map_eq_nil_iff.1 htypes)
      have hform : Json.KeywordFormed (leewayOf env) "oneOf" (.arr (definitions made)) :=
        isBranches_made fun hnil => hne hnil
      have hcomponents := componentsOf_abstract hnames htypes
      exact .inl (hd.insert (fieldFormed_arr (by decide) hform
        (ofParts_formed hparts (hcomponents ▸ halone (by simp)) hmade)))
  | object hgathers => exact .inl (object_formed _ (gathers_formed hgathers hmade .empty) hd)

theorem completed_formed (henums : ScalarEnums env.graph)
    (hheirs : ∀ names, subtypes env node = .ok names → names ≠ [])
    (hnode : env.graph.typeNode type = .ok node) (h : Completed env node ctx d made d')
    (hmade : ∀ m ∈ made, Formed env m) (hd : d.WellFormed (leewayOf env)) :
    d'.WellFormed (leewayOf env) ∨ node.kind = .undefined ∧ d' = d.setType "undefined" := by
  cases h with
  | annotated => exact .inl hd
  | shaped _ hshape hrendered =>
      exact rendered_formed henums hheirs hnode hshape hrendered hmade hd

/-! ## Types -/

/-- The type stands at the top. -/
def IsStanding (_ : TypeId) (ctx : Context) : Prop := ∃ asRef, ctx = Context.standing asRef

/-- A type that goes by a name is not just the member of a union. -/
theorem standsAlone_of_named (hplace : Placed env IsStanding type ctx)
    (h : referenceOf env type ctx = .ok (some name)) : StandsAlone env type := by
  rcases namedByAlias_or_own h with ⟨-, id, -, -, -, hreffed, -⟩ | ⟨node, hnode, hsymbol, -⟩
  · cases hplace with
    | root hroot =>
        obtain ⟨asRef, rfl⟩ := hroot
        cases hreffed
    | inside hinside =>
        cases hinside with
        | part | mapValue => cases hreffed
        | property place =>
            obtain ⟨property, hproperty, htype⟩ := place.hasType
            exact .ofSymbol (List.mem_map_of_mem (Graph.mem_symbols hproperty)) htype
  · exact .named hnode hsymbol

theorem formed_guarantee (hplain : IsPlain env.graph) (henums : ScalarEnums env.graph)
    (hheirs : ∀ node names, subtypes env node = .ok names → names ≠ []) :
    Guarantee env IsStanding (fun _ m => Formed env m)
      (fun _ _ _ d => d.WellFormed (leewayOf env)) where
  given_mono _ h := h
  stored_mono _ h := h
  reserved _ _ _ := Definition.wellFormed_empty
  inlined {_ _ _ node _ _ _} _ hnode hremarks _ hmade hd := by
    cases remarks_plain hplain hremarks
    refine (completed_formed henums (hheirs node) hnode hd hmade Definition.wellFormed_empty).imp_right
      fun hundefined => ?_
    exact ⟨hundefined.2, node, hnode, hundefined.1⟩
  referred _ _ hremarks _ _ := by
    cases remarks_plain hplain hremarks
    exact .inl (Definition.wellFormed_reference _)
  filled {_ type _ node _ name _ _} hplace hnode hremarks hname hmade hd := by
    cases remarks_plain hplain hremarks
    have htitled : (titled env.settings name Dict.empty).WellFormed (leewayOf env) :=
      Definition.wellFormed_empty.insertIf fun _ =>
        fieldFormed_value rfl (keywordFormed_other (by decide))
    rcases completed_formed henums (hheirs node) hnode hd hmade htitled with
      hformed | ⟨hkind, heq⟩
    · exact hformed
    · rw [heq]
      refine htitled.insert (fieldFormed_value rfl (.inl ⟨"undefined", rfl, .inr ⟨rfl, type, ?_⟩⟩))
      exact ⟨⟨node, hnode, hkind⟩, standsAlone_of_named hplace hname⟩

end Schema

end TypeSchema
