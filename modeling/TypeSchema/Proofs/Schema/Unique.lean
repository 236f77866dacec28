import Mathlib.Data.List.Basic
import TypeSchema.Proofs.Schema.Given

/-!
# One definition for one place

The definition given for a type depends on the graph, the settings and the place of the type only:
no two runs give different definitions for one place, whatever they described before.  Of the place
in which a type is registered even less matters: the aliases written there by what they annotate and
by the shape that they decide, and the keyword if the type is a union that lists more than literals.
-/

namespace TypeSchema

namespace UnionParts

/-- How the definition of a member goes into the parts of a union. -/
def addDefinition (parts : UnionParts) (d : Definition) : UnionParts :=
  match d.bareType with
  | some tag => if tag = "undefined" then parts else parts.addTag tag
  | none => parts.addSchema d

/-- Values alone make no more than one branch, so the keyword does not matter. -/
theorem write_of_only_values {parts : UnionParts} (hschemas : parts.schemas = [])
    (htags : parts.tags = []) (keyword keyword' : UnionKeyword) (d : Definition) :
    parts.write keyword d = parts.write keyword' d := by
  obtain ⟨values, tags, schemas⟩ := parts
  cases hschemas
  cases htags
  have hbranches : (⟨values, [], []⟩ : UnionParts).branches.length ≤ 1 := by
    unfold branches joinBooleans
    split
    · exact Nat.le_refl 1
    · dsimp only
      split
      · exact Nat.zero_le 1
      · exact Nat.le_refl 1
  unfold write
  match hmatch : (⟨values, [], []⟩ : UnionParts).branches with
  | [] => rfl
  | [only] => rfl
  | _ :: _ :: _ => simp [hmatch] at hbranches

end UnionParts

namespace Schema

variable {env : Environment} {refers refers' : String → TypeId → Context → Prop} {type : TypeId}
  {node : TypeNode} {ctx ctx' : Context} {d d₁ d₂ : Definition} {made made' : List Described}
  {name : String}

theorem sorts_cons {parts parts' : UnionParts} {member : TypeId} {rest : List TypeId}
    (h : Sorts env parts (member :: rest) made parts') :
    (∃ node value, env.graph.typeNode member = .ok node ∧ Shape.literalValue node = some value ∧
      Sorts env (parts.addValue value) rest made parts') ∨
    (IsDescribed env member ∧ ∃ d made', made = ⟨member, Context.nested env.settings, d⟩ :: made' ∧
      Sorts env (parts.addDefinition d) rest made' parts') := by
  cases h with
  | value hnode hvalue others => exact .inl ⟨_, _, hnode, hvalue, others⟩
  | absent hmember hd others =>
      refine .inr ⟨hmember, _, _, rfl, ?_⟩
      simp only [UnionParts.addDefinition, hd, if_true]
      exact others
  | tag hmember hd hne others =>
      refine .inr ⟨hmember, _, _, rfl, ?_⟩
      simp only [UnionParts.addDefinition, hd, if_neg hne]
      exact others
  | schema hmember hd others =>
      refine .inr ⟨hmember, _, _, rfl, ?_⟩
      simp only [UnionParts.addDefinition, hd]
      exact others

theorem Sorts.only_values {parts parts' : UnionParts} {members : List TypeId}
    (h : Sorts env parts members made parts')
    (hmembers : ∀ member ∈ members, ¬ IsDescribed env member) :
    parts'.schemas = parts.schemas ∧ parts'.tags = parts.tags := by
  induction h with
  | nil => exact ⟨rfl, rfl⟩
  | value _ _ _ ih =>
      obtain ⟨hschemas, htags⟩ := ih (List.forall_mem_cons.1 hmembers).2
      exact ⟨hschemas.trans (addValue_schemas _ _), htags.trans (addValue_tags _ _)⟩
  | absent hmember | tag hmember | schema hmember =>
      exact absurd hmember (hmembers _ List.mem_cons_self)

theorem IsDescribed.not_literal {member : TypeId} {value : Json} (h : IsDescribed env member)
    (hnode : env.graph.typeNode member = .ok node) : Shape.literalValue node ≠ some value := by
  obtain ⟨node', hnode', hliteral⟩ := h
  cases hnode.symm.trans hnode'
  simp [hliteral]

/-! ## Parts -/

/-- The definition is the only one that can be given for its place. -/
def IsOnly (env : Environment) (m : Described) : Prop :=
  ∀ {refers d}, Given env refers m.type m.ctx d → m.definition = d

def AllOnly (env : Environment) (made : List Described) : Prop := ∀ m ∈ made, IsOnly env m

def AllGiven (env : Environment) (refers : String → TypeId → Context → Prop)
    (made : List Described) : Prop :=
  ∀ m ∈ made, Given env refers m.type m.ctx m.definition

theorem made_eq
    (hplaces : made.map (fun m => (m.type, m.ctx)) = made'.map (fun m => (m.type, m.ctx)))
    (hmade : AllOnly env made) (hmade' : AllGiven env refers' made') : made = made' := by
  induction made generalizing made' with
  | nil =>
      cases made' with
      | nil => rfl
      | cons => cases hplaces
  | cons m rest ih =>
      cases made' with
      | nil => cases hplaces
      | cons m' rest' =>
          obtain ⟨type, ctx, d⟩ := m
          obtain ⟨type', ctx', d'⟩ := m'
          simp only [List.map_cons, List.cons.injEq, Prod.mk.injEq] at hplaces
          obtain ⟨⟨rfl, rfl⟩, hrest⟩ := hplaces
          obtain ⟨hm, hmade⟩ := List.forall_mem_cons.1 hmade
          obtain ⟨hm', hmade'⟩ := List.forall_mem_cons.1 hmade'
          rw [ih hrest hmade hmade', show d = d' from hm hm']

theorem ofParts_unique {types : List TypeId} (h : ofParts env types made)
    (h' : ofParts env types made') (hmade : AllOnly env made)
    (hmade' : AllGiven env refers' made') : made = made' :=
  made_eq (h.trans h'.symm) hmade hmade'

theorem sorts_unique {parts parts₁ parts₂ : UnionParts} {members : List TypeId}
    (h : Sorts env parts members made parts₁) (h' : Sorts env parts members made' parts₂)
    (hmade : AllOnly env made) (hmade' : AllGiven env refers' made') : parts₁ = parts₂ := by
  induction members generalizing parts made made' with
  | nil =>
      cases h
      cases h'
      rfl
  | cons member rest ih =>
      rcases sorts_cons h with
        ⟨node, value, hnode, hvalue, hrest⟩ | ⟨hmember, d, made₁, rfl, hrest⟩
      · rcases sorts_cons h' with ⟨node', value', hnode', hvalue', hrest'⟩ | ⟨hmember', -⟩
        · cases hnode.symm.trans hnode'
          cases hvalue.symm.trans hvalue'
          exact ih hrest hrest' hmade hmade'
        · exact absurd hvalue (hmember'.not_literal hnode)
      · rcases sorts_cons h' with ⟨node', value', hnode', hvalue', -⟩ | ⟨-, d', made₂, rfl, hrest'⟩
        · exact absurd hvalue' (hmember.not_literal hnode')
        · obtain ⟨honly, hmade⟩ := List.forall_mem_cons.1 hmade
          obtain ⟨hgiven, hmade'⟩ := List.forall_mem_cons.1 hmade'
          have heq : d = d' := honly hgiven
          rw [heq] at hrest
          exact ih hrest hrest' hmade hmade'

/-! ## Objects -/

/-- The parts write the same definitions; what is required counts only if it is written. -/
structure WritesAs (settings : Settings) (parts parts' : ObjectParts) : Prop where
  properties : parts.properties = parts'.properties
  order : parts.order = parts'.order
  required : settings.generateRequired = true → parts.required = parts'.required

theorem WritesAs.write_eq {settings : Settings} {parts parts' : ObjectParts}
    (h : WritesAs settings parts parts') (d : Definition) :
    parts.write settings d = parts'.write settings d := by
  obtain ⟨properties, order, required⟩ := parts
  obtain ⟨properties', order', required'⟩ := parts'
  obtain ⟨rfl, rfl, hrequired⟩ := h
  cases hsetting : settings.generateRequired with
  | true =>
      cases hrequired hsetting
      rfl
  | false => simp [ObjectParts.write, hsetting, Definition.insertIf]

theorem WritesAs.add {settings : Settings} {parts parts' : ObjectParts}
    (h : WritesAs settings parts parts') (name : String) (d : Definition)
    {isRequired isRequired' : Bool}
    (hrequired : settings.generateRequired = true → isRequired = isRequired') :
    WritesAs settings (parts.add name d isRequired) (parts'.add name d isRequired') where
  properties := congrArg (fun properties => Dict.insert properties name d.toJson) h.properties
  order := congrArg (· ++ [name]) h.order
  required hsetting := by
    simp only [ObjectParts.add, h.required hsetting, hrequired hsetting]

theorem PropertyPlace.not_untyped {id : SymbolId} {property : Symbol}
    {declaration : Option Declaration} (place : PropertyPlace env id declaration type ctx)
    (hproperty : env.graph.symbol id = .ok property) : property.type ≠ none := by
  obtain ⟨property', hproperty', htype⟩ := place.hasType
  cases hproperty.symm.trans hproperty'
  simp [htype]

theorem ofProperty_unique {id : SymbolId} {result result' : Option Definition}
    (h : OfProperty env id made result) (h' : OfProperty env id made' result')
    (hmade : AllOnly env made) (hmade' : AllGiven env refers' made') : result = result' := by
  have hsame {declaration declaration' : Option Declaration} {type type' : TypeId}
      {ctx ctx' : Context} {d d' : Definition} (place : PropertyPlace env id declaration type ctx)
      (place' : PropertyPlace env id declaration' type' ctx') (hd : IsOnly env ⟨type, ctx, d⟩)
      (hd' : Given env refers' type' ctx' d') : declaration = declaration' ∧ d = d' := by
    cases (placeOf_eq place).symm.trans (placeOf_eq place')
    cases place.isDeclared.symm.trans place'.isDeclared
    exact ⟨rfl, hd hd'⟩
  cases h with
  | untyped hproperty htype =>
      cases h' with
      | untyped => rfl
      | ignored place | kept place => exact absurd htype (place.not_untyped hproperty)
  | ignored place hd =>
      cases h' with
      | untyped hproperty htype => exact absurd htype (place.not_untyped hproperty)
      | ignored => rfl
      | kept place' hd' =>
          obtain ⟨rfl, rfl⟩ := hsame place place' (hmade _ List.mem_cons_self)
            (hmade' _ List.mem_cons_self)
          cases hd.symm.trans hd'
  | kept place hd =>
      cases h' with
      | untyped hproperty htype => exact absurd htype (place.not_untyped hproperty)
      | ignored place' hd' =>
          obtain ⟨rfl, rfl⟩ := hsame place place' (hmade _ List.mem_cons_self)
            (hmade' _ List.mem_cons_self)
          cases hd.symm.trans hd'
      | kept place' hd' =>
          obtain ⟨rfl, rfl⟩ := hsame place place' (hmade _ List.mem_cons_self)
            (hmade' _ List.mem_cons_self)
          rfl

theorem collects_unique {parts parts₀ parts₁ parts₂ : ObjectParts} {properties : List SymbolId}
    (h : Collects env parts properties made parts₁)
    (h' : Collects env parts₀ properties made' parts₂)
    (hparts : WritesAs env.settings parts parts₀)
    (hmade : AllOnly env made) (hmade' : AllGiven env refers' made') :
    WritesAs env.settings parts₁ parts₂ := by
  induction h generalizing made' parts₀ with
  | nil =>
      cases h'
      exact hparts
  | dropped hresult _ ih =>
      obtain ⟨hown, hothers⟩ := List.forall_mem_append.1 hmade
      cases h' with
      | dropped _ others =>
          exact ih others hparts hothers (List.forall_mem_append.1 hmade').2
      | added _ hresult' =>
          cases ofProperty_unique hresult hresult' hown (List.forall_mem_append.1 hmade').1
  | added hproperty hresult hrequired _ ih =>
      obtain ⟨hown, hothers⟩ := List.forall_mem_append.1 hmade
      cases h' with
      | dropped hresult' =>
          cases ofProperty_unique hresult hresult' hown (List.forall_mem_append.1 hmade').1
      | added hproperty' hresult' hrequired' others =>
          cases hproperty.symm.trans hproperty'
          cases ofProperty_unique hresult hresult' hown (List.forall_mem_append.1 hmade').1
          refine ih others (hparts.add _ _ fun hsetting => ?_) hothers
            (List.forall_mem_append.1 hmade').2
          rw [hrequired hsetting, hrequired' hsetting]

/-! ## Types -/

/-- What of its place matters for a type: the shape that is decided there, and the keyword if it is
a union that lists more than literals. -/
structure ShapedAlike (env : Environment) (node : TypeNode) (ctx ctx' : Context) : Prop where
  shape : Shape.ofNode env.graph node ctx.reffed = Shape.ofNode env.graph node ctx'.reffed
  keyword : ∀ members, node.kind = .union members → (∃ member ∈ members, IsDescribed env member) →
    ctx.unionKeyword = ctx'.unionKeyword

theorem ShapedAlike.refl (env : Environment) (node : TypeNode) (ctx : Context) :
    ShapedAlike env node ctx ctx := ⟨rfl, fun _ _ _ => rfl⟩

theorem ShapedAlike.write_eq {members : List TypeId} {parts : UnionParts}
    (halike : ShapedAlike env node ctx ctx') (hkind : node.kind = .union members)
    (h : Sorts env .empty members made parts) (d : Definition) :
    parts.write ctx.unionKeyword d = parts.write ctx'.unionKeyword d := by
  by_cases hmember : ∃ member ∈ members, IsDescribed env member
  · rw [halike.keyword members hkind hmember]
  · obtain ⟨hschemas, htags⟩ := h.only_values fun member hmem hdescribed =>
      hmember ⟨member, hmem, hdescribed⟩
    exact UnionParts.write_of_only_values hschemas htags _ _ d

theorem rendered_unique {shape : Shape} (halike : ShapedAlike env node ctx ctx')
    (hshape : Shape.ofNode env.graph node ctx.reffed = .ok shape)
    (hobject : ∀ properties, shape ≠ .object properties)
    (h : Rendered env node ctx d shape made d₁) (h' : Rendered env node ctx' d shape made' d₂)
    (hmade : AllOnly env made) (hmade' : AllGiven env refers' made') : d₁ = d₂ := by
  cases h with
  | union hsorts =>
      cases h' with
      | union hsorts' =>
          have hkind := (Shape.tells_ofNode hshape).union _ rfl
          rw [sorts_unique hsorts hsorts' hmade hmade']
          exact halike.write_eq hkind hsorts' d
  | intersection hparts =>
      cases h' with
      | intersection hparts' => rw [ofParts_unique hparts hparts' hmade hmade']
  | tuple hparts =>
      cases h' with
      | tuple hparts' => rw [ofParts_unique hparts hparts' hmade hmade']
  | array element items =>
      cases h' with
      | array _ items' =>
          have hitems : items = items' := hmade _ List.mem_cons_self (hmade' _ List.mem_cons_self)
          rw [hitems]
  | map key value items =>
      cases h' with
      | map _ _ items' =>
          have hitems : items = items' := hmade _ List.mem_cons_self (hmade' _ List.mem_cons_self)
          rw [hitems]
  | abstract hnames htypes hparts =>
      cases h' with
      | abstract hnames' htypes' hparts' =>
          cases hnames.symm.trans hnames'
          have heq := List.map_injective_iff.2 (fun _ _ => Option.some.inj)
            (htypes.symm.trans htypes')
          rw [← heq] at hparts'
          rw [ofParts_unique hparts hparts' hmade hmade']
  | typeof hsetting =>
      cases h' with
      | typeof => rfl
      | function hsetting' => cases hsetting.symm.trans hsetting'
  | function hsetting =>
      cases h' with
      | typeof hsetting' => cases hsetting.symm.trans hsetting'
      | function => rfl
  | object => exact absurd rfl (hobject _)
  | _ =>
      cases h'
      rfl

theorem completes_unique (halike : ShapedAlike env node ctx ctx')
    (h : Completes env node ctx d made d₁) (h' : Completes env node ctx' d made' d₂)
    (hmade : AllOnly env made) (hmade' : AllGiven env refers' made') : d₁ = d₂ := by
  obtain ⟨hcompleted, hobject⟩ := h
  obtain ⟨hcompleted', hobject'⟩ := h'
  cases hcompleted with
  | annotated htype =>
      cases hcompleted' with
      | annotated => rfl
      | shaped htype' => cases htype.symm.trans htype'
  | @shaped shape _ _ htype hshape hrendered =>
      cases hcompleted' with
      | annotated htype' => cases htype.symm.trans htype'
      | shaped _ hshape' hrendered' =>
          cases (halike.shape ▸ hshape).symm.trans hshape'
          by_cases hproperties : ∃ properties, shape = .object properties
          · obtain ⟨properties, rfl⟩ := hproperties
            obtain ⟨parts, hcollects, rfl⟩ := hobject properties htype hshape
            obtain ⟨parts', hcollects', rfl⟩ := hobject' properties htype hshape'
            have hwrites := collects_unique hcollects hcollects'
              (⟨rfl, rfl, fun _ => rfl⟩ : WritesAs env.settings .empty .empty) hmade hmade'
            exact hwrites.write_eq d
          · exact rendered_unique halike hshape
              (fun properties heq => hproperties ⟨properties, heq⟩) hrendered hrendered' hmade
              hmade'

theorem Given.unique (h : Given env refers type ctx d₁) (h' : Given env refers' type ctx d₂) :
    d₁ = d₂ := by
  -- a reference is a leaf on both sides, whatever the names stand for
  induction h generalizing refers' d₂ with
  | inlined hnode hremarks hname _ hd ih =>
      cases h' with
      | inlined hnode' hremarks' _ hmade' hd' =>
          cases hnode.symm.trans hnode'
          cases hremarks.symm.trans hremarks'
          rw [completes_unique (.refl _ _ _) hd hd' (fun m hm _ _ hgiven => ih m hm hgiven) hmade']
      | referred _ _ hname' => cases hname.symm.trans hname'
  | referred hnode hremarks hname =>
      cases h' with
      | inlined _ _ hname' => cases hname.symm.trans hname'
      | referred hnode' hremarks' hname' =>
          cases hnode.symm.trans hnode'
          cases hremarks.symm.trans hremarks'
          cases hname.symm.trans hname'
          rfl

/-! ## Registered types -/

/-- What of the place in which a type is registered goes into its definition. -/
structure RegistersAlike (env : Environment) (type : TypeId) (ctx ctx' : Context) : Prop where
  annotated : ∀ node remarks remarks', env.graph.typeNode type = .ok node →
    Remarks.of env node ctx = .ok remarks → Remarks.of env node ctx' = .ok remarks' →
      remarks.onType false = remarks'.onType false
  shaped : ∀ node, env.graph.typeNode type = .ok node → ShapedAlike env node ctx ctx'

theorem StoredFrom.unique (halike : RegistersAlike env type ctx ctx')
    (h : StoredFrom env refers name type ctx d₁) (h' : StoredFrom env refers' name type ctx' d₂) :
    d₁ = d₂ := by
  obtain ⟨node, remarks, made, hnode, hremarks, hmade, hd⟩ := h
  obtain ⟨node', remarks', made', hnode', hremarks', hmade', hd'⟩ := h'
  cases hnode.symm.trans hnode'
  rw [halike.annotated node remarks remarks' hnode hremarks hremarks'] at hd
  exact completes_unique (halike.shaped node hnode) hd hd'
    (fun m hm _ _ hgiven => (hmade m hm).unique hgiven) hmade'

end Schema

end TypeSchema
