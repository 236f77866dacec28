import TypeSchema.Proofs.Graph.Closed
import TypeSchema.Proofs.Schema.Components
import TypeSchema.Proofs.Schema.Describes

/-!
# Failures that are avoided

Describing a type fails with one of the given failures only if a look-up on the way or the
description of a component does.  The look-ups begin at what the graph mentions, so it is enough
that they avoid the failures there.
-/

namespace TypeSchema

/-! ## Outcomes and runs -/

/-- Whatever comes out, it is none of the bad failures. -/
def Avoids {α : Type} (bad : Failure → Prop) (outcome : Except Failure α) : Prop :=
  ∀ failure, outcome = .error failure → ¬ bad failure

namespace Avoids

variable {α β : Type} {bad : Failure → Prop}

theorem ok (value : α) : Avoids bad (.ok value) := fun _ h => by cases h

theorem error {failure : Failure} (h : ¬ bad failure) :
    Avoids bad (.error failure : Except Failure α) :=
  fun _ heq => by cases heq; exact h

theorem bind {outcome : Except Failure α} {next : α → Except Failure β} (h : Avoids bad outcome)
    (hnext : ∀ value, outcome = .ok value → Avoids bad (next value)) :
    Avoids bad (outcome >>= next) := by
  cases outcome with
  | ok value => exact hnext value rfl
  | error failure => exact error (h failure rfl)

theorem map {f : α → β} {outcome : Except Failure α} (h : Avoids bad outcome) :
    Avoids bad (f <$> outcome) := by
  rw [map_eq_pure_bind]
  exact h.bind fun value _ => ok (f value)

end Avoids

/-- From a state that meets the demand the run ends in one that meets it, and it does not end with a
bad failure. -/
def Run.Avoids {σ α : Type} (keeps : σ → Prop) (bad : Failure → Prop) (run : Run σ α) : Prop :=
  ∀ state, keeps state → keeps (run.on state).2 ∧ TypeSchema.Avoids bad (run.on state).1

namespace Run.Avoids

variable {σ α β : Type} {keeps : σ → Prop} {bad : Failure → Prop}

theorem pure (value : α) : Avoids keeps bad (Pure.pure value : Run σ α) :=
  fun _ h => ⟨h, .ok value⟩

theorem throw {failure : Failure} (h : ¬ bad failure) :
    Avoids keeps bad (MonadExcept.throw failure : Run σ α) :=
  fun _ hstate => ⟨hstate, .error h⟩

theorem modify {f : σ → σ} (h : ∀ state, keeps state → keeps (f state)) :
    Avoids keeps bad (MonadState.modifyGet fun state => ((), f state) : Run σ Unit) :=
  fun state hstate => ⟨h state hstate, .ok ()⟩

theorem bind {run : Run σ α} {next : α → Run σ β} (h : Avoids keeps bad run)
    (hnext : ∀ value, Avoids keeps bad (next value)) : Avoids keeps bad (run >>= next) := by
  intro state hstate
  obtain ⟨hmiddle, houtcome⟩ := h state hstate
  rw [on_bind]
  generalize run.on state = outcome at hmiddle houtcome ⊢
  obtain ⟨result, middle⟩ := outcome
  cases result with
  | error failure => exact ⟨hmiddle, .error (houtcome failure rfl)⟩
  | ok value => exact hnext value middle hmiddle

theorem ofExcept_bind {outcome : Except Failure α} {next : α → Run σ β}
    (h : TypeSchema.Avoids bad outcome)
    (hnext : ∀ value, outcome = .ok value → Avoids keeps bad (next value)) :
    Avoids keeps bad (Run.ofExcept outcome >>= next) := by
  intro state hstate
  rw [on_bind, on_ofExcept]
  cases outcome with
  | error failure => exact ⟨hstate, .error (h failure rfl)⟩
  | ok value => exact hnext value rfl state hstate

theorem map {f : α → β} {run : Run σ α} (h : Avoids keeps bad run) :
    Avoids keeps bad (f <$> run) := by
  rw [map_eq_pure_bind]
  exact h.bind fun value => pure (f value)

theorem forEach {keeps : Progress → Prop} {act : α → Describing β} {elements : List α}
    (h : ∀ a ∈ elements, Avoids keeps bad (act a)) :
    Avoids keeps bad (Describing.forEach act elements) := by
  induction elements with
  | nil => exact pure []
  | cons a rest ih =>
      obtain ⟨hfirst, hrest⟩ := List.forall_mem_cons.1 h
      exact hfirst.bind fun b => (ih hrest).bind fun bs => pure (b :: bs)

theorem forM {act : α → Run σ Unit} {elements : List α}
    (h : ∀ a ∈ elements, Avoids keeps bad (act a)) : Avoids keeps bad (elements.forM act) := by
  induction elements with
  | nil => exact pure ()
  | cons a rest ih =>
      obtain ⟨hfirst, hrest⟩ := List.forall_mem_cons.1 h
      exact hfirst.bind fun _ => ih hrest

end Run.Avoids

/-! ## Look-ups -/

namespace Graph

/-- What is mentioned in the graph can be looked up without the failures. -/
structure Readable (g : Graph) (bad : Failure → Prop) : Prop where
  types : ∀ id ∈ g.mentionedTypes, Avoids bad (g.typeNode id)
  symbols : ∀ id ∈ g.mentionedSymbols, Avoids bad (g.symbol id)
  declarations : ∀ id ∈ g.mentionedDeclarations, Avoids bad (g.declaration id)

variable {g : Graph} {bad : Failure → Prop}

theorem Closed.readable (h : g.Closed) (bad : Failure → Prop) : g.Readable bad := by
  refine ⟨fun id hid => ?_, fun id hid => ?_, fun id hid => ?_⟩
  · obtain ⟨node, hfind⟩ := Dict.mem_keys_iff.1 (h.types hid)
    rw [typeNode, hfind]
    exact .ok node
  · obtain ⟨symbol, hfind⟩ := Dict.mem_keys_iff.1 (h.symbols hid)
    rw [Graph.symbol, hfind]
    exact .ok symbol
  · obtain ⟨d, hfind⟩ := Dict.mem_keys_iff.1 (h.declarations hid)
    rw [declaration, hfind]
    exact .ok d

theorem values_of_symbol {id : SymbolId} {symbol : Symbol} (h : g.symbol id = .ok symbol) :
    symbol ∈ g.symbols.values :=
  List.mem_map_of_mem (mem_symbols h)

/-- Aliases lead to symbols that are mentioned. -/
theorem resolveAlias_mentioned {id target : SymbolId} (hid : id ∈ g.mentionedSymbols)
    (h : g.resolveAlias id = .ok target) : target ∈ g.mentionedSymbols := by
  unfold resolveAlias at h
  generalize maxAliasHops = hops at h
  induction hops generalizing id with
  | zero =>
      cases h
      exact hid
  | succ hops ih =>
      obtain ⟨symbol, hsymbol, h⟩ := outcome_bind_eq_ok.1 h
      split at h
      · cases h
        exact hid
      · rename_i next hnext
        exact ih (mem_mentionedSymbols_of_alias (values_of_symbol hsymbol) hnext) h

variable (hread : g.Readable bad)

include hread

theorem firstDeclaration_avoids {id : SymbolId} (hid : Avoids bad (g.symbol id)) :
    Avoids bad (g.firstDeclaration id) := by
  refine hid.bind fun symbol hsymbol => ?_
  split
  · exact .ok none
  · rename_i first rest hlist
    have hmentioned : first ∈ g.mentionedDeclarations :=
      mem_mentionedDeclarations_of_symbol (values_of_symbol hsymbol) (by rw [hlist]; simp)
    exact (hread.declarations first hmentioned).bind fun _ _ => .ok _

theorem resolveAlias_avoids {id : SymbolId} (hid : id ∈ g.mentionedSymbols) :
    Avoids bad (g.resolveAlias id) := by
  unfold resolveAlias
  generalize maxAliasHops = hops
  induction hops generalizing id with
  | zero => exact .ok id
  | succ hops ih =>
      refine (hread.symbols id hid).bind fun symbol hsymbol => ?_
      split
      · exact .ok id
      · rename_i target htarget
        exact ih (mem_mentionedSymbols_of_alias (values_of_symbol hsymbol) htarget)

end Graph

namespace Schema

/-- The failures have no cause in what is mentioned in the graph, in index signatures, in types that
nothing extends, or in the names of types that extend another one. -/
structure Readable (env : Environment) (bad : Failure → Prop) : Prop
    extends env.graph.Readable bad where
  keys : ∀ type key, ¬ bad (.unsupportedIndexKey type key)
  arities : ∀ type count, ¬ bad (.indexSignatureArity type count)
  subtypes : ∀ name, ¬ bad (.missingSubtypes name)
  heirs : ∀ {node names name}, Schema.subtypes env node = .ok names → name ∈ names →
    env.table.all.find? name = none → ¬ bad (.unknownType name)

end Schema

open Schema (Readable)

/-! ## Shapes -/

namespace Shape

variable {env : Environment} {bad : Failure → Prop} {node : TypeNode} {id : Option SymbolId}

theorem symbolOf_avoids (h : ∀ s ∈ id, Avoids bad (env.graph.symbol s)) :
    Avoids bad (symbolOf env.graph id) := by
  cases id with
  | none => exact .ok none
  | some id => exact (h id rfl).map

theorem nameOf_avoids (h : ∀ s ∈ id, Avoids bad (env.graph.symbol s)) :
    Avoids bad (nameOf env.graph id) :=
  (symbolOf_avoids h).bind fun _ _ => .ok _

variable (hread : Readable env bad) (hnode : node ∈ env.graph.types.values)

include hread

theorem indexKey_avoids {parameters : List TypeId}
    (hparameters : ∀ id ∈ parameters, id ∈ env.graph.mentionedTypes) :
    Avoids bad (indexKey env.graph node parameters) := by
  unfold indexKey
  split
  · refine (hread.types _ (hparameters _ List.mem_cons_self)).bind fun key _ => ?_
    split
    · exact .ok _
    · exact .ok _
    · exact .error (hread.keys _ _)
  · exact .error (hread.arities _ _)

theorem mapOf_avoids {declaration : Option Declaration}
    (hdeclaration : ∀ d ∈ declaration, d ∈ env.graph.declarations.values)
    (stringIndex numberIndex : Option TypeId) :
    Avoids bad (mapOf env.graph node declaration stringIndex numberIndex) := by
  unfold mapOf
  split
  · rename_i parameters value hmembers
    refine (indexKey_avoids hread fun id hid => ?_).bind fun _ _ => .ok _
    cases declaration with
    | none => cases hmembers
    | some d =>
        refine Graph.mem_mentionedTypes_of_declaration (hdeclaration d rfl) ?_
        rw [membersOf] at hmembers
        simp [Declaration.types, hmembers, Member.types, hid]
  · split <;> exact .ok _
  · exact .ok none

theorem ofClass_avoids {declaration : Option Declaration}
    (hdeclaration : ∀ d ∈ declaration, d ∈ env.graph.declarations.values) :
    Avoids bad (ofClass env.graph node declaration) := by
  unfold ofClass
  split
  · exact .ok _
  · dsimp only
    split
    · refine (mapOf_avoids hread hdeclaration _ _).bind fun mapped _ => ?_
      split <;> exact .ok _
    · refine (Avoids.ok none).bind fun mapped _ => ?_
      split <;> exact .ok _

include hnode

theorem nodeSymbol_avoids : ∀ s ∈ node.symbol, Avoids bad (env.graph.symbol s) := by
  intro s hs
  refine hread.symbols s (Graph.mem_mentionedSymbols_of_type hnode ?_)
  exact List.mem_append_left _ (Option.mem_toList.2 hs)

variable {reffed : Option SymbolId} (hreffed : ∀ s ∈ reffed, Avoids bad (env.graph.symbol s))

include hreffed

theorem ofRoot_avoids : Avoids bad (ofRoot env.graph node reffed) := by
  unfold ofRoot
  split
  · exact .ok _
  · refine (nameOf_avoids (nodeSymbol_avoids hread hnode)).bind fun name _ => ?_
    split
    · exact (nameOf_avoids hreffed).bind fun _ _ => .ok _
    · exact .ok _

theorem ofNamed_avoids : Avoids bad (ofNamed env.graph node reffed) := by
  have hundeclared : ∀ d ∈ (none : Option Declaration), d ∈ env.graph.declarations.values :=
    fun d hd => by cases hd
  unfold ofNamed
  split
  · refine (ofRoot_avoids hread hnode hreffed).bind fun root _ => ?_
    split
    · exact ofClass_avoids hread hundeclared
    · exact .ok _
  · rename_i id hid
    have hsymbol : Avoids bad (env.graph.symbol id) := nodeSymbol_avoids hread hnode id hid
    refine hsymbol.bind fun symbol _ => ?_
    split
    · exact ofRoot_avoids hread hnode hreffed
    · refine (Graph.firstDeclaration_avoids hread.toReadable hsymbol).bind
        fun declaration hdeclared => ?_
      split
      · split
        · exact .ok _
        · split
          · exact .ok _
          · refine ofClass_avoids hread fun d hd => ?_
            cases hd
            exact Graph.mem_declarations hdeclared
      · split
        · exact .ok _
        · exact ofClass_avoids hread hundeclared

theorem ofNode_avoids : Avoids bad (ofNode env.graph node reffed) := by
  unfold ofNode
  split
  · exact .ok _
  · exact .ok _
  · exact .ok _
  · exact ofNamed_avoids hread hnode hreffed
  · exact ofNamed_avoids hread hnode hreffed
  · exact ofRoot_avoids hread hnode hreffed

end Shape

namespace Schema

variable {env : Environment} {bad : Failure → Prop} {node : TypeNode} {ctx : Context}
  {type : TypeId} {shape : Shape}

theorem annotationsOf_avoids {id : Option SymbolId}
    (h : ∀ s ∈ id, Avoids bad (env.graph.symbol s)) : Avoids bad (annotationsOf env id) := by
  cases id with
  | none => exact .ok _
  | some id => exact (h id rfl).bind fun _ _ => .ok _

theorem referenceName_avoids (hreffed : ∀ s ∈ ctx.reffed, Avoids bad (env.graph.symbol s))
    (symbol : Option Symbol) : Avoids bad (referenceName env node symbol ctx) := by
  unfold referenceName
  split
  · split
    · rename_i reffed heq
      exact (hreffed reffed heq).bind fun _ _ => .ok _
    · exact .ok none
  · split <;> exact .ok _

theorem remarks_avoids (hsymbol : ∀ s ∈ node.symbol, Avoids bad (env.graph.symbol s))
    (hproperty : ∀ s ∈ ctx.property, Avoids bad (env.graph.symbol s))
    (hreffed : ∀ s ∈ ctx.reffed, Avoids bad (env.graph.symbol s)) :
    Avoids bad (Remarks.of env node ctx) :=
  (annotationsOf_avoids hreffed).bind fun _ _ => (annotationsOf_avoids hproperty).bind fun _ _ =>
    (annotationsOf_avoids hsymbol).bind fun _ _ => .ok _

theorem mem_mentionedSymbols_of_reference {declaration : Option Declaration} {reference : SymbolId}
    (hdeclaration : ∀ d ∈ declaration, d ∈ env.graph.declarations.values)
    (h : declaration.bind (·.typeReference) = some reference) :
    reference ∈ env.graph.mentionedSymbols := by
  obtain ⟨d, hd, hwritten⟩ := Option.bind_eq_some_iff.1 h
  refine Graph.mem_mentionedSymbols_of_declaration (hdeclaration d hd) ?_
  simp [Declaration.symbols, hwritten]

theorem writtenSymbol_avoids (hread : Readable env bad) {declaration : Option Declaration}
    (hdeclaration : ∀ d ∈ declaration, d ∈ env.graph.declarations.values) :
    Avoids bad (writtenSymbol env.graph declaration) := by
  unfold writtenSymbol
  split
  · rename_i hreference
    exact (Graph.resolveAlias_avoids hread.toReadable
      (mem_mentionedSymbols_of_reference hdeclaration hreference)).map
  · exact .ok none

theorem writtenSymbol_mentioned {declaration : Option Declaration} {reffed : Option SymbolId}
    (hdeclaration : ∀ d ∈ declaration, d ∈ env.graph.declarations.values)
    (h : writtenSymbol env.graph declaration = .ok reffed) :
    ∀ s ∈ reffed, s ∈ env.graph.mentionedSymbols := by
  unfold writtenSymbol at h
  split at h
  · rename_i reference hreference
    rw [map_eq_pure_bind] at h
    obtain ⟨target, htarget, hpure⟩ := outcome_bind_eq_ok.1 h
    cases hpure
    intro s hs
    cases hs
    exact Graph.resolveAlias_mentioned
      (mem_mentionedSymbols_of_reference hdeclaration hreference) htarget
  · cases h
    intro s hs
    cases hs

/-! ## Describing components -/

section

variable {keeps : Progress → Prop} {describe : Describe} (hread : Readable env bad)
  (hkeeps : ∀ {p p' : Progress}, p'.registry = p.registry → keeps p → keeps p')

include hkeeps

theorem notice_avoids (n : Notice) : Run.Avoids keeps bad (Describing.notice n) :=
  .modify fun _ => hkeeps rfl

theorem markAbsent_avoids (property : SymbolId) :
    Run.Avoids keeps bad (Describing.markAbsent property) :=
  .modify fun p => hkeeps (quiet_markAbsent p property).registry

theorem addDefault_avoids (property : Symbol) (initializer : Option Initializer)
    (d : Definition) : Run.Avoids keeps bad (addDefault property initializer d) := by
  unfold addDefault
  split
  · exact .pure d
  · split
    · exact .pure _
    · exact .pure d
    · exact (notice_avoids hkeeps _).bind fun _ => .pure d

omit hkeeps in
theorem parts_avoids {types : List TypeId}
    (hdescribe : ∀ {type ctx}, type ∈ types → Inside env type ctx →
      Run.Avoids keeps bad (describe type ctx)) :
    Run.Avoids keeps bad (parts env describe types) :=
  .forEach fun type htype => (hdescribe htype (.part type)).map

theorem functionDefinition_avoids (node : TypeNode) (d : Definition) :
    Run.Avoids keeps bad (functionDefinition env describe node d) := by
  unfold functionDefinition
  split
  · exact .pure _
  · exact (notice_avoids hkeeps _).bind fun _ => (Run.Avoids.pure _).bind fun _ => .pure _

include hread

omit hkeeps in
theorem abstractDefinition_avoids
    (hdescribe : ∀ {type ctx}, type ∈ componentsOf env node .abstract → Inside env type ctx →
      Run.Avoids keeps bad (describe type ctx)) (d : Definition) :
    Run.Avoids keeps bad (abstractDefinition env describe node d) := by
  have hsubtypes : Avoids bad (subtypes env node) := by
    unfold subtypes
    dsimp only
    split
    · exact .ok _
    · exact .error (hread.subtypes _)
  refine .ofExcept_bind hsubtypes fun names hnames => ?_
  have hheirs : ∀ name ∈ names, Run.Avoids keeps bad (subtypeDefinition env describe name) := by
    intro name hname
    unfold subtypeDefinition
    split
    · rename_i type htype
      refine (hdescribe ?_ (.part type)).map
      simp only [componentsOf, hnames, List.mem_filterMap]
      exact ⟨name, hname, htype⟩
    · rename_i hnone
      exact .throw (hread.heirs hnames hname hnone)
  exact (Run.Avoids.forEach hheirs).bind fun _ => .pure _

theorem unionMember_avoids {member : TypeId} (hmember : member ∈ env.graph.mentionedTypes)
    (hdescribe : Run.Avoids keeps bad (describe member (Context.nested env.settings)))
    (property : Option SymbolId) (parts : UnionParts) :
    Run.Avoids keeps bad (unionMember env describe property parts member) := by
  refine .ofExcept_bind (hread.types member hmember) fun node _ => ?_
  split
  · exact .pure _
  · refine hdescribe.bind fun d => ?_
    split
    · split
      · exact (markAbsent_avoids hkeeps _).bind fun _ => .pure parts
      · exact .pure parts
    · exact .pure _
    · split
      · exact (notice_avoids hkeeps _).bind fun _ => .pure _
      · exact .pure _

theorem unionMembers_avoids {members : List TypeId}
    (hmembers : ∀ type ∈ members, type ∈ env.graph.mentionedTypes)
    (hdescribe : ∀ {type ctx}, type ∈ members → Inside env type ctx →
      Run.Avoids keeps bad (describe type ctx)) (property : Option SymbolId) (parts : UnionParts) :
    Run.Avoids keeps bad (unionMembers env describe property parts members) := by
  induction members generalizing parts with
  | nil => exact .pure parts
  | cons member rest ih =>
      obtain ⟨hmember, hrest⟩ := List.forall_mem_cons.1 hmembers
      refine (unionMember_avoids hread hkeeps hmember
        (hdescribe List.mem_cons_self (.part member)) property parts).bind ?_
      exact ih hrest fun htype => hdescribe (List.mem_cons_of_mem _ htype)

theorem propertyDefinition_avoids {id : SymbolId} (hid : id ∈ env.graph.mentionedSymbols)
    (hdescribe : ∀ {type ctx}, (env.graph.symbols.find? id).bind (·.type) = some type →
      Inside env type ctx → Run.Avoids keeps bad (describe type ctx)) :
    Run.Avoids keeps bad (propertyDefinition env describe id) := by
  refine .ofExcept_bind (hread.symbols id hid) fun property hproperty =>
    .ofExcept_bind (Graph.firstDeclaration_avoids hread.toReadable (hread.symbols id hid))
      fun declaration hdeclared => ?_
  split
  · exact (notice_avoids hkeeps _).bind fun _ => .pure _
  · rename_i type htype
    have hwritten : Avoids bad (writtenSymbol env.graph declaration) :=
      writtenSymbol_avoids hread fun d hd => by
        cases hd
        exact Graph.mem_declarations hdeclared
    refine .ofExcept_bind hwritten fun reffed hreffed => ?_
    have place : PropertyPlace env id declaration type
        ⟨env.settings.useRef, .oneOf, some id, reffed⟩ :=
      ⟨⟨property, hproperty, htype⟩, hdeclared, reffed, hreffed, rfl⟩
    have hfind : env.graph.symbols.find? id = some property :=
      Dict.mem_entries_iff.1 (Graph.mem_symbols hproperty)
    refine (hdescribe (by rw [hfind]; exact htype) (.property place)).bind fun d => ?_
    split
    · exact .pure none
    · exact (addDefault_avoids hkeeps property _ d).map

theorem objectProperties_avoids {properties : List SymbolId}
    (hproperties : ∀ id ∈ properties, id ∈ env.graph.mentionedSymbols)
    (hdescribe : ∀ {type ctx}, type ∈ componentsOf env node (.object properties) →
      Inside env type ctx → Run.Avoids keeps bad (describe type ctx)) (parts : ObjectParts) :
    Run.Avoids keeps bad (objectProperties env describe parts properties) := by
  induction properties generalizing parts with
  | nil => exact .pure parts
  | cons id rest ih =>
      obtain ⟨hid, hrest⟩ := List.forall_mem_cons.1 hproperties
      have hfirst : Run.Avoids keeps bad (propertyDefinition env describe id) :=
        propertyDefinition_avoids hread hkeeps hid fun htype =>
          hdescribe (List.mem_filterMap.2 ⟨id, List.mem_cons_self, htype⟩)
      have hproperty : Run.Avoids keeps bad (objectProperty env describe parts id) := by
        refine .ofExcept_bind (hread.symbols id hid) fun property _ => hfirst.bind fun result => ?_
        split
        · exact .pure parts
        · exact fun p hp => ⟨hp, .ok _⟩
      refine hproperty.bind (ih hrest fun htype => hdescribe ?_)
      obtain ⟨other, hother, hfind⟩ := List.mem_filterMap.1 htype
      exact List.mem_filterMap.2 ⟨other, List.mem_cons_of_mem _ hother, hfind⟩

theorem render_avoids (hshape : shape.Mentioned env.graph)
    (hdescribe : ∀ {type ctx}, type ∈ componentsOf env node shape → Inside env type ctx →
      Run.Avoids keeps bad (describe type ctx)) (ctx : Context) (d : Definition) :
    Run.Avoids keeps bad (render env describe node ctx shape d) := by
  cases shape with
  | union members =>
      exact (unionMembers_avoids hread hkeeps hshape.types hdescribe _ _).bind fun _ => .pure _
  | intersection members => exact (parts_avoids hdescribe).bind fun _ => .pure _
  | tuple elements => exact (parts_avoids hdescribe).bind fun _ => .pure _
  | array element =>
      exact (hdescribe List.mem_cons_self (.part element)).bind fun _ => .pure _
  | unsupported => exact (notice_avoids hkeeps _).bind fun _ => .pure d
  | enum declaration =>
      exact (Run.Avoids.forM fun n _ => notice_avoids hkeeps n).bind fun _ => .pure _
  | function => exact functionDefinition_avoids hkeeps node d
  | map key value =>
      refine (hdescribe List.mem_cons_self (.mapValue value)).bind fun _ => ?_
      cases key <;> exact .pure _
  | abstract => exact abstractDefinition_avoids hread hdescribe d
  | object properties =>
      exact (objectProperties_avoids hread hkeeps hshape.properties hdescribe _).bind
        fun _ => .pure _
  | _ => exact .pure _

theorem complete_avoids (hnode : env.graph.typeNode type = .ok node)
    (hreffed : ∀ s ∈ ctx.reffed, Avoids bad (env.graph.symbol s))
    (hdescribe : ∀ {child ctx}, child ∈ components env type → Inside env child ctx →
      Run.Avoids keeps bad (describe child ctx)) (d : Definition) :
    Run.Avoids keeps bad (complete env describe node ctx d) := by
  have hmem : node ∈ env.graph.types.values := List.mem_map_of_mem (Graph.mem_types hnode)
  unfold complete
  split
  · exact .pure d
  · refine .ofExcept_bind (Shape.ofNode_avoids hread hmem hreffed) fun shape hshape => ?_
    exact render_avoids hread hkeeps (Shape.mentioned_ofNode hmem hshape)
      (fun hchild => hdescribe (componentsOf_subset hnode hshape hchild)) ctx d

end

/-! ## Types -/

/-- A type and the symbols of its place can be looked up without the failures. -/
structure ReadableAt (env : Environment) (bad : Failure → Prop) (type : TypeId) (ctx : Context) :
    Prop where
  type : Avoids bad (env.graph.typeNode type)
  property : ∀ s ∈ ctx.property, Avoids bad (env.graph.symbol s)
  reffed : ∀ s ∈ ctx.reffed, Avoids bad (env.graph.symbol s)

theorem readableAt_of_none (h : Avoids bad (env.graph.typeNode type))
    (hproperty : ctx.property = none) (hreffed : ctx.reffed = none) :
    ReadableAt env bad type ctx := by
  refine ⟨h, fun s hs => ?_, fun s hs => ?_⟩
  · rw [hproperty] at hs
    cases hs
  · rw [hreffed] at hs
    cases hs

theorem Inside.readableAt (hread : Readable env bad) (hinside : Inside env type ctx)
    (htype : type ∈ env.graph.mentionedTypes) : ReadableAt env bad type ctx := by
  have hnode := hread.types type htype
  cases hinside with
  | part => exact readableAt_of_none hnode rfl rfl
  | mapValue => exact readableAt_of_none hnode rfl rfl
  | property place =>
      obtain ⟨property, hproperty, -⟩ := place.hasType
      obtain ⟨reffed, hreffed, rfl⟩ := place.isWritten
      refine ⟨hnode, fun s hs => ?_, fun s hs => hread.symbols s ?_⟩
      · cases hs
        rw [hproperty]
        exact .ok property
      · refine writtenSymbol_mentioned (fun d hd => ?_) hreffed s hs
        cases hd
        exact Graph.mem_declarations place.isDeclared

theorem registerType_avoids {describe : Describe} {name : String} {d : Definition}
    (hcomplete : ∀ d, Run.Avoids (fun _ => True) bad (complete env describe node ctx d)) :
    Run.Avoids (fun _ => True) bad (registerType env describe type node ctx name d) := by
  have hregistered : Run.Avoids (fun _ => True) bad (Describing.isRegistered name) :=
    fun _ _ => ⟨trivial, .ok _⟩
  refine hregistered.bind fun taken => ?_
  split
  · exact .pure ()
  · exact (Run.Avoids.modify fun _ _ => trivial).bind fun _ =>
      (hcomplete _).bind fun _ => .modify fun _ _ => trivial

theorem describeType_avoids (hread : Readable env bad) {describe : Describe}
    (hat : ReadableAt env bad type ctx)
    (hdescribe : ∀ {child ctx}, child ∈ components env type → Inside env child ctx →
      Run.Avoids (fun _ => True) bad (describe child ctx)) :
    Run.Avoids (fun _ => True) bad (describeType env describe type ctx) := by
  refine .ofExcept_bind hat.type fun node hnode => ?_
  have hsymbol := Shape.nodeSymbol_avoids hread (List.mem_map_of_mem (Graph.mem_types hnode))
  have hcomplete (d : Definition) :
      Run.Avoids (fun _ => True) bad (complete env describe node ctx d) :=
    complete_avoids hread (fun _ _ => trivial) hnode hat.reffed hdescribe d
  refine .ofExcept_bind (Shape.symbolOf_avoids hsymbol) fun symbol _ =>
    .ofExcept_bind (referenceName_avoids hat.reffed symbol) fun name _ =>
    .ofExcept_bind (remarks_avoids hsymbol hat.property hat.reffed) fun remarks _ => ?_
  cases name with
  | none => exact (hcomplete _).bind fun _ => .pure _
  | some name =>
      exact (registerType_avoids hcomplete).bind fun _ =>
        (Run.Avoids.modify fun _ _ => trivial).bind fun _ => .pure _

/-- Describing a type avoids the failures to any depth, if reading the graph does. -/
theorem typeDefinition_avoids (hread : Readable env bad) (htable : TableMentioned env)
    (hlimit : ∀ name, ¬ bad (.recursionLimit name)) (depth : Nat)
    (hat : ReadableAt env bad type ctx) :
    Run.Avoids (fun _ => True) bad (typeDefinition env depth type ctx) := by
  induction depth generalizing type ctx with
  | zero => exact .ofExcept_bind hat.type fun node _ => .throw (hlimit node.name)
  | succ depth ih =>
      exact describeType_avoids hread hat fun hchild hinside =>
        ih (hinside.readableAt hread (components_mentioned htable hchild))

end Schema

end TypeSchema
