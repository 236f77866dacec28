import TypeSchema.Proofs.Objects.Properties
import TypeSchema.Proofs.References.Stored

/-!
# What is given for a type

`Given` says which definition is given for a type where it stands, with no word of the run that
gives it: the names by which types are referred to stand for themselves, and whether a property may
be absent is read off the graph.  A run gives nothing else, as long as every type that may leave its
property absent is described in the place of the property.
-/

namespace TypeSchema.Schema

/-! ## Definitions -/

/-- As `Gathers`, where the graph tells which properties may be absent. -/
inductive Collects (env : Environment) :
    ObjectParts → List SymbolId → List Described → ObjectParts → Prop where
  | nil {parts} : Collects env parts [] [] parts
  | dropped {parts id rest made made' parts'} (h : OfProperty env id made none)
      (others : Collects env parts rest made' parts') :
      Collects env parts (id :: rest) (made ++ made') parts'
  | added {parts id rest made made' parts' property d} {isRequired : Bool}
      (hproperty : env.graph.symbol id = .ok property) (h : OfProperty env id made (some d))
      (hrequired : env.settings.generateRequired = true →
        isRequired = (!property.isOptional && !property.isMethod && !mayBeAbsent env id))
      (others : Collects env (parts.add property.name d isRequired) rest made' parts') :
      Collects env parts (id :: rest) (made ++ made') parts'

theorem Collects.gathers {env : Environment} {parts parts' : ObjectParts}
    {properties : List SymbolId} {made : List Described}
    (h : Collects env parts properties made parts') : Gathers env parts properties made parts' := by
  induction h with
  | nil => exact .nil
  | dropped hresult _ ih => exact .dropped hresult ih
  | added hproperty hresult _ _ ih => exact .added _ hproperty hresult ih

/-- As `Completed`, where the graph tells which properties may be absent. -/
structure Completes (env : Environment) (node : TypeNode) (ctx : Context) (d : Definition)
    (made : List Described) (d' : Definition) : Prop where
  completed : Completed env node ctx d made d'
  object : ∀ properties, d.hasType = false →
    Shape.ofNode env.graph node ctx.reffed = .ok (.object properties) →
      ∃ parts, Collects env .empty properties made parts ∧ d' = parts.write env.settings d

/-- The definition given for a type where it stands; `refers` says which types are referred to. -/
inductive Given (env : Environment) (refers : String → TypeId → Context → Prop) :
    TypeId → Context → Definition → Prop where
  | inlined {type ctx node remarks made d} (hnode : env.graph.typeNode type = .ok node)
      (hremarks : Remarks.of env node ctx = .ok remarks)
      (hname : referenceOf env type ctx = .ok none)
      (hmade : ∀ m ∈ made, Given env refers m.type m.ctx m.definition)
      (hd : Completes env node ctx (remarks.onType true) made d) :
      Given env refers type ctx (remarks.widen d)
  | referred {type ctx node remarks name} (hnode : env.graph.typeNode type = .ok node)
      (hremarks : Remarks.of env node ctx = .ok remarks)
      (hname : referenceOf env type ctx = .ok (some name)) (hrefers : refers name type ctx) :
      Given env refers type ctx (remarks.widen (remarks.onReference name))

/-! ## Properties that are marked -/

variable {env : Environment} {describe : Describe} {p p₁ p' : Progress} {id : SymbolId}
  {type : TypeId} {node : TypeNode} {ctx : Context} {d d' : Definition} {parts parts' : ObjectParts}
  {made : List Described} {name : String} {depth : Nat}

/-- Where it matters what is required: a type that may leave its property absent does not go by a
name in the place of the property. -/
def InlinesAbsent (env : Environment) : Prop :=
  env.settings.generateRequired = true → ∀ id type ctx,
    placeOf env id = .ok (some (type, ctx)) → leavesOut env type ctx = true →
      referenceOf env type ctx = .ok none

def isInlined (env : Environment) (type : TypeId) (ctx : Context) : Bool :=
  match referenceOf env type ctx with
  | .ok none => true
  | _ => false

theorem isInlined_iff : isInlined env type ctx = true ↔ referenceOf env type ctx = .ok none := by
  unfold isInlined
  split <;> simp_all

theorem placeOf_mem {stands : TypeId × Context} (h : placeOf env id = .ok (some stands)) :
    id ∈ env.graph.symbols.keys := by
  obtain ⟨property, hproperty, -⟩ := outcome_bind_eq_ok.1 h
  exact Dict.mem_keys_iff.2 ⟨property, Dict.mem_entries_iff.1 (Graph.mem_symbols hproperty)⟩

instance (env : Environment) : Decidable (InlinesAbsent env) :=
  decidable_of_iff (env.settings.generateRequired = true → ∀ id ∈ env.graph.symbols.keys,
      (match placeOf env id with
        | .ok (some (type, ctx)) => !leavesOut env type ctx || isInlined env type ctx
        | _ => true) = true) <| by
    refine forall_congr' fun _ => ⟨fun h id type ctx hplace hleaves => ?_, fun h id _ => ?_⟩
    · have hid := h id (placeOf_mem hplace)
      rw [hplace] at hid
      simp only [hleaves, Bool.not_true, Bool.false_or] at hid
      exact isInlined_iff.1 hid
    · split
      · rename_i type ctx hplace
        cases hleaves : leavesOut env type ctx with
        | false => rfl
        | true => exact isInlined_iff.2 (h id type ctx hplace hleaves)
      · rfl

/-- Only properties that may be absent are marked. -/
def MarksAbsent (env : Environment) (p : Progress) : Prop :=
  ∀ id ∈ p.mayBeAbsent, mayBeAbsent env id = true

theorem MarksAbsent.of_subset (h : MarksAbsent env p') (hsubset : p.mayBeAbsent ⊆ p'.mayBeAbsent) :
    MarksAbsent env p :=
  fun id hid => h id (hsubset hid)

theorem marked_iff_mayBeAbsent (hinline : InlinesAbsent env)
    (hrequired : env.settings.generateRequired = true)
    {declaration : Option Declaration} (place : PropertyPlace env id declaration type ctx)
    (h : (typeDefinition env depth type ctx).on p = (.ok d, p')) (hmarks : MarksAbsent env p') :
    id ∈ p'.mayBeAbsent ↔ mayBeAbsent env id = true := by
  have hplace := placeOf_eq place
  refine ⟨hmarks id, fun habsent => ?_⟩
  rw [mayBeAbsent_eq hplace] at habsent
  refine (marked_iff hplace place.property h).2 (.inr ⟨habsent, fun name hname => ?_⟩)
  cases (hinline hrequired id type ctx hplace habsent).symm.trans hname

theorem PropertyRun.describes {result : Option Definition}
    (h : PropertyRun env describe id p result p') :
    ∃ made, Describes describe p made p' ∧ OfProperty env id made result := by
  cases h with
  | untyped hproperty htype quiet =>
      exact ⟨[], .nil quiet.quiet, .untyped hproperty htype⟩
  | ignored place hrun hd => exact ⟨_, .single hrun, .ignored place hd⟩
  | kept place hrun hd quiet =>
      exact ⟨_, (Describes.single hrun).quiet_right quiet.quiet, .kept place hd⟩

theorem PropertyRun.absent_iff (hinline : InlinesAbsent env)
    (hrequired : env.settings.generateRequired = true)
    (h : PropertyRun env (typeDefinition env depth) id p (some d) p')
    (hmarks : MarksAbsent env p') : decide (id ∈ p'.mayBeAbsent) = mayBeAbsent env id := by
  cases h with
  | untyped hproperty htype quiet =>
      have habsent := mayBeAbsent_untyped hproperty htype
      rw [habsent, decide_eq_false_iff_not]
      intro hid
      rw [hmarks id hid] at habsent
      cases habsent
  | kept place hrun hd quiet =>
      have hmarked := marked_iff_mayBeAbsent hinline hrequired place hrun
        (hmarks.of_subset quiet.quiet.marks)
      rw [← quiet.marks] at hmarked
      rw [Bool.eq_iff_iff, decide_eq_true_iff, hmarked]

theorem objectProperties_collects (hinline : InlinesAbsent env) {properties : List SymbolId}
    (h : (objectProperties env (typeDefinition env depth) parts properties).on p =
      (.ok parts', p')) (hmarks : MarksAbsent env p') :
    ∃ made, Describes (typeDefinition env depth) p made p' ∧
      Collects env parts properties made parts' := by
  induction properties generalizing p parts with
  | nil =>
      cases h
      exact ⟨[], .nil (.refl _), .nil⟩
  | cons id rest ih =>
      obtain ⟨parts₁, p₁, hid, hrest⟩ := objectProperties_cons.1 h
      obtain ⟨property, result, hproperty, hrun, rfl⟩ := objectProperty_run hid
      obtain ⟨made, hmade, hresult⟩ := hrun.describes
      obtain ⟨made', hmade', hcollects⟩ := ih hrest
      refine ⟨made ++ made', hmade.append hmade', ?_⟩
      cases result with
      | none => exact .dropped hresult hcollects
      | some d =>
          refine .added hproperty hresult (fun hrequired => ?_) hcollects
          rw [hrun.absent_iff hinline hrequired (hmarks.of_subset hmade'.marks_subset)]

/-! ## Runs -/

theorem complete_completes (hinline : InlinesAbsent env)
    (h : (complete env (typeDefinition env depth) node ctx d).on p = (.ok d', p'))
    (hmarks : MarksAbsent env p') :
    ∃ made, Describes (typeDefinition env depth) p made p' ∧ Completes env node ctx d made d' := by
  by_cases hobject : ∃ properties, d.hasType = false ∧
      Shape.ofNode env.graph node ctx.reffed = .ok (.object properties)
  · obtain ⟨properties, htype, hshape⟩ := hobject
    simp only [complete, htype, Bool.false_eq_true, if_false, hshape, Run.on_bind_eq_ok,
      Run.on_ofExcept_eq_ok] at h
    obtain ⟨_, _, ⟨hshape', rfl⟩, h⟩ := h
    cases hshape'
    simp only [render, objectDefinition, Run.on_bind_eq_ok] at h
    obtain ⟨parts, p₁, hparts, hpure⟩ := h
    cases hpure
    obtain ⟨made, hmade, hcollects⟩ := objectProperties_collects hinline hparts hmarks
    obtain ⟨made', hmade', hgathers⟩ := objectProperties_ok hparts
    refine ⟨made, hmade, .shaped htype hshape (.object ?_), fun properties' _ hproperties => ?_⟩
    · exact hcollects.gathers
    · cases hshape.symm.trans hproperties
      exact ⟨parts, hcollects, rfl⟩
  · obtain ⟨made, hmade, hd⟩ := complete_ok h
    exact ⟨made, hmade, hd, fun properties htype hshape =>
      absurd ⟨properties, htype, hshape⟩ hobject⟩

theorem Given.mono {refers refers' : String → TypeId → Context → Prop}
    (hrefers : ∀ {name type ctx}, refers name type ctx → refers' name type ctx)
    (h : Given env refers type ctx d) : Given env refers' type ctx d := by
  induction h with
  | inlined hnode hremarks hname _ hd ih => exact .inlined hnode hremarks hname ih hd
  | referred hnode hremarks hname href => exact .referred hnode hremarks hname (hrefers href)

def Refers (p : Progress) (name : String) (type : TypeId) (ctx : Context) : Prop :=
  .referred name type ctx ∈ p.history

/-- The definition that is stored under a name for a type that stands in a place. -/
def StoredFrom (env : Environment) (refers : String → TypeId → Context → Prop) (name : String)
    (type : TypeId) (ctx : Context) (d : Definition) : Prop :=
  ∃ node remarks made, env.graph.typeNode type = .ok node ∧ Remarks.of env node ctx = .ok remarks ∧
    (∀ m ∈ made, Given env refers m.type m.ctx m.definition) ∧
    Completes env node ctx (titled env.settings name (remarks.onType false)) made d

/-- Every definition that was stored is that of the type for which its name was reserved. -/
def Explained (env : Environment) (p : Progress) : Prop :=
  ∀ name other, .filled name other ∈ p.history → ∃ type ctx d,
    .reserved name type ctx ∈ p.history ∧ p.registry.find? name = some d ∧
      StoredFrom env (Refers p) name type ctx d

theorem explained_initial : Explained env .initial :=
  fun _ _ h => absurd h List.not_mem_nil

theorem StoredFrom.mono {refers refers' : String → TypeId → Context → Prop}
    (hrefers : ∀ {name type ctx}, refers name type ctx → refers' name type ctx)
    (h : StoredFrom env refers name type ctx d) : StoredFrom env refers' name type ctx d := by
  obtain ⟨node, remarks, made, hnode, hremarks, hmade, hd⟩ := h
  exact ⟨node, remarks, made, hnode, hremarks, fun m hm => (hmade m hm).mono hrefers, hd⟩

theorem storedFrom_lasts (env : Environment) :
    Stored.Lasts fun p => StoredFrom env (Refers p) :=
  ⟨fun hhistory hd => hd.mono fun href => hhistory href⟩

theorem Explained.quiet (h : Explained env p) (quiet : Quiet p p') : Explained env p' :=
  Stores.quiet (storedFrom_lasts env) h quiet

theorem Explained.refer (h : Explained env p) (name : String) (type : TypeId) (ctx : Context) :
    Explained env (p.refer name type ctx) :=
  Stores.refer (storedFrom_lasts env) h name type ctx

theorem Explained.reserve (h : Explained env p) (free : name ∉ p.registry.keys) (type : TypeId)
    (ctx : Context) : Explained env (p.reserve name type ctx) :=
  Stores.reserve (storedFrom_lasts env) h free type ctx

theorem Explained.fill (h : Explained env p) (hreserved : .reserved name type ctx ∈ p.history)
    (hd : StoredFrom env (Refers p) name type ctx d) : Explained env (p.fill name type d) :=
  Stores.fill (storedFrom_lasts env) h hreserved hd

/-! ## All of a run -/

theorem Describes.history_subset (h : Describes (typeDefinition env depth) p made p') :
    p.history ⊆ p'.history :=
  h.relates (R := fun p p' => p.history ⊆ p'.history)
    (fun quiet => quiet.history ▸ List.Subset.refl _) List.Subset.trans
    fun hrun => history_subset_of_steps (typeDefinition_steps hrun)

/-- The descriptions give what they give in the end, whenever they were made. -/
theorem Describes.given
    (hdescribe : ∀ {type ctx d p p'}, (typeDefinition env depth type ctx).on p = (.ok d, p') →
      MarksAbsent env p' → Explained env p →
        Given env (Refers p') type ctx d ∧ Explained env p')
    (h : Describes (typeDefinition env depth) p made p') (hmarks : MarksAbsent env p')
    (hp : Explained env p) :
    (∀ m ∈ made, Given env (Refers p') m.type m.ctx m.definition) ∧ Explained env p' := by
  induction h with
  | nil quiet => exact ⟨fun m hm => absurd hm List.not_mem_nil, hp.quiet quiet⟩
  | cons quiet first rest ih =>
      obtain ⟨hfirst, hexplained⟩ :=
        hdescribe first (hmarks.of_subset rest.marks_subset) (hp.quiet quiet)
      obtain ⟨hrest, hexplained⟩ := ih hmarks hexplained
      refine ⟨List.forall_mem_cons.2 ⟨?_, hrest⟩, hexplained⟩
      exact hfirst.mono fun href => rest.history_subset href

theorem typeDefinition_given (hinline : InlinesAbsent env)
    (h : (typeDefinition env depth type ctx).on p = (.ok d, p')) (hmarks : MarksAbsent env p')
    (hp : Explained env p) : Given env (Refers p') type ctx d ∧ Explained env p' := by
  revert hmarks hp
  apply typeDefinition_induction (R := fun type ctx p d p' => MarksAbsent env p' →
    Explained env p → Given env (Refers p') type ctx d ∧ Explained env p') ?_ h
  intro depth ih type ctx p d p' hrun hmarks hp
  cases hrun with
  | inlined hnode hremarks hname hcomplete =>
      obtain ⟨made, hmade, hd⟩ := complete_completes hinline hcomplete hmarks
      obtain ⟨hgiven, hexplained⟩ := hmade.given ih hmarks hp
      exact ⟨.inlined hnode hremarks hname hgiven hd, hexplained⟩
  | known hnode hremarks hname taken =>
      exact ⟨.referred hnode hremarks hname List.mem_cons_self, hp.refer _ _ _⟩
  | new hnode hremarks hname free hcomplete =>
      obtain ⟨made, hmade, hd⟩ := complete_completes hinline hcomplete hmarks
      obtain ⟨hgiven, hexplained⟩ := hmade.given ih hmarks (hp.reserve free type ctx)
      -- the parts were described while the name was reserved only, so they may refer to it
      have hreserved := hmade.history_subset List.mem_cons_self
      refine ⟨.referred hnode hremarks hname List.mem_cons_self, ?_⟩
      exact (hexplained.fill hreserved ⟨_, _, made, hnode, hremarks, hgiven, hd⟩).refer _ _ _

end TypeSchema.Schema
