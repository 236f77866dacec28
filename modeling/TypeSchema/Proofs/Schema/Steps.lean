import Mathlib.Logic.Relation
import TypeSchema.Proofs.Schema.Shapes
import TypeSchema.Proofs.Schema.TypeDescribed

/-!
# Steps of a description

Whether it succeeds or fails, a description changes the progress by few kinds of steps: notices and
marks, a name reserved for a type that is referred to by it, the definition stored under a name that
was reserved before, and a reference to a name that is taken.  What these steps preserve, every
sequence of descriptions preserves.
-/

namespace TypeSchema

open Relation (ReflTransGen)

/-! ## Runs that move by steps -/

/-- Whatever comes out of the run, the state has moved by steps. -/
def Run.Moves {σ α : Type} (step : σ → σ → Prop) (run : Run σ α) : Prop :=
  ∀ state, ReflTransGen step state (run.on state).2

namespace Run.Moves

variable {σ α β : Type} {step : σ → σ → Prop}

theorem pure (value : α) : Moves step (Pure.pure value : Run σ α) := fun _ => .refl

theorem throw (failure : Failure) : Moves step (MonadExcept.throw failure : Run σ α) :=
  fun _ => .refl

theorem ofExcept (outcome : Except Failure α) : Moves step (Run.ofExcept outcome) := by
  intro state
  rw [on_ofExcept]

theorem modify {f : σ → σ} (h : ∀ state, step state (f state)) :
    Moves step (MonadState.modifyGet fun state => ((), f state) : Run σ Unit) :=
  fun state => .single (h state)

theorem bind {run : Run σ α} {next : α → Run σ β} (h : Moves step run)
    (hnext : ∀ value, Moves step (next value)) : Moves step (run >>= next) := by
  intro state
  have hrun := h state
  rw [on_bind]
  generalize run.on state = outcome at hrun ⊢
  obtain ⟨result, middle⟩ := outcome
  cases result with
  | error failure => exact hrun
  | ok value => exact hrun.trans (hnext value middle)

theorem ofExcept_bind {outcome : Except Failure α} {next : α → Run σ β}
    (h : ∀ value, outcome = .ok value → Moves step (next value)) :
    Moves step (Run.ofExcept outcome >>= next) := by
  intro state
  rw [on_bind, on_ofExcept]
  cases outcome with
  | error failure => exact .refl
  | ok value => exact h value rfl state

theorem map {f : α → β} {run : Run σ α} (h : Moves step run) : Moves step (f <$> run) := by
  rw [map_eq_pure_bind]
  exact h.bind fun value => pure (f value)

theorem forEach {step : Progress → Progress → Prop} {act : α → Describing β} {elements : List α}
    (h : ∀ a, Moves step (act a)) : Moves step (Describing.forEach act elements) := by
  induction elements with
  | nil => exact pure []
  | cons a rest ih => exact (h a).bind fun b => ih.bind fun bs => pure (b :: bs)

theorem forM {act : α → Run σ Unit} {elements : List α}
    (h : ∀ a ∈ elements, Moves step (act a)) : Moves step (elements.forM act) := by
  induction elements with
  | nil => exact pure ()
  | cons a rest ih =>
      obtain ⟨hfirst, hrest⟩ := List.forall_mem_cons.1 h
      exact hfirst.bind fun _ => ih hrest

end Run.Moves

namespace Schema

open Run (Moves)

/-- What annotations and shape make of the type where it is registered under the name. -/
def RenderedFrom (env : Environment) (name : String) (type : TypeId) (ctx : Context)
    (d : Definition) : Prop :=
  ∃ node remarks made, env.graph.typeNode type = .ok node ∧ Remarks.of env node ctx = .ok remarks ∧
    Completed env node ctx (titled env.settings name (remarks.onType false)) made d

inductive Step (env : Environment) : Progress → Progress → Prop where
  | notice (p n) : Step env p (p.notice n)
  | markAbsent (p property) : Step env p (p.markAbsent property)
  | reserve {p name type ctx} (hname : referenceOf env type ctx = .ok (some name))
      (free : name ∉ p.registry.keys) : Step env p (p.reserve name type ctx)
  | fill {p name type ctx d} (hd : RenderedFrom env name type ctx d)
      (reserved : .reserved name type ctx ∈ p.history) : Step env p (p.fill name type d)
  | refer {p name type ctx} (hname : referenceOf env type ctx = .ok (some name))
      (taken : name ∈ p.registry.keys) : Step env p (p.refer name type ctx)

variable {env : Environment} {p p' : Progress}

theorem Step.history_subset (h : Step env p p') : p.history ⊆ p'.history := by
  cases h with
  | notice => exact List.Subset.refl _
  | markAbsent =>
      rw [(quiet_markAbsent _ _).history]
      exact List.Subset.refl _
  | reserve | fill | refer => exact List.subset_cons_self _ _

theorem Step.marks_subset (h : Step env p p') : p.mayBeAbsent ⊆ p'.mayBeAbsent := by
  cases h with
  | markAbsent => exact (quiet_markAbsent _ _).marks
  | notice | reserve | fill | refer => exact List.Subset.refl _

theorem Step.keys_subset (h : Step env p p') : p.registry.keys ⊆ p'.registry.keys := by
  cases h with
  | notice | refer => exact List.Subset.refl _
  | markAbsent =>
      rw [(quiet_markAbsent _ _).registry]
      exact List.Subset.refl _
  | reserve | fill => exact fun _ hmem => Dict.mem_keys_insert.2 (.inr hmem)

theorem keys_subset_of_steps (h : ReflTransGen (Step env) p p') :
    p.registry.keys ⊆ p'.registry.keys := by
  induction h with
  | refl => exact List.Subset.refl _
  | tail _ hstep ih => exact List.Subset.trans ih hstep.keys_subset

theorem marks_subset_of_steps (h : ReflTransGen (Step env) p p') :
    p.mayBeAbsent ⊆ p'.mayBeAbsent := by
  induction h with
  | refl => exact List.Subset.refl _
  | tail _ hstep ih => exact List.Subset.trans ih hstep.marks_subset

/-! ## Steps that mark nothing -/

/-- Every step that leaves the marks as they are is allowed, and none forgets what happened. -/
structure Allows (env : Environment) (step : Progress → Progress → Prop) : Prop where
  unmarked : ∀ {p p'}, Step env p p' → p'.mayBeAbsent = p.mayBeAbsent → step p p'
  remembers : ∀ {p p'}, step p p' → p.history ⊆ p'.history

variable {step : Progress → Progress → Prop}

theorem Allows.history_subset (h : Allows env step) (hsteps : ReflTransGen step p p') :
    p.history ⊆ p'.history := by
  induction hsteps with
  | refl => exact List.Subset.refl _
  | tail _ hstep ih => exact List.Subset.trans ih (h.remembers hstep)

theorem allows_step : Allows env (Step env) := ⟨fun h _ => h, Step.history_subset⟩

theorem history_subset_of_steps (h : ReflTransGen (Step env) p p') : p.history ⊆ p'.history :=
  allows_step.history_subset h

/-- The description of a member says that it is undefined. -/
def SaysUndefined (env : Environment) (describe : Describe) (member : TypeId) : Prop :=
  IsDescribed env member ∧ ∃ d p p',
    (describe member (Context.nested env.settings)).on p = (.ok d, p') ∧
      d.bareType = some "undefined"

/-- What it takes for a property to be marked where the type stands: the type is a union that no
annotation gives another type, and the description of a member says that it is undefined. -/
structure MayMark (env : Environment) (describe : Describe) (type : TypeId) (ctx : Context)
    (id : SymbolId) : Prop where
  property : ctx.property = some id
  union : ∃ node remarks name members, env.graph.typeNode type = .ok node ∧
    Remarks.of env node ctx = .ok remarks ∧ referenceOf env type ctx = .ok name ∧
    (remarks.onType name.isNone).hasType = false ∧ node.kind = .union members ∧
    ∃ member ∈ members, SaysUndefined env describe member

/-! ## The parts of a description -/

section

variable {describe : Describe} (hsteps : Allows env step)

include hsteps

theorem notice_moves (n : Notice) : Moves step (Describing.notice n) :=
  .modify fun p => hsteps.unmarked (.notice p n) rfl

theorem notices_moves (notices : List Notice) :
    Moves step (notices.forM Describing.notice) :=
  .forM fun n _ => notice_moves hsteps n

theorem addDefault_moves (property : Symbol) (initializer : Option Initializer) (d : Definition) :
    Moves step (addDefault property initializer d) := by
  unfold addDefault
  split
  · exact .pure d
  · split
    · exact .pure _
    · exact .pure d
    · exact (notice_moves hsteps _).bind fun _ => .pure d

variable (hdescribe : ∀ {type ctx}, Inside env type ctx →
  Moves step (describe type ctx))

include hdescribe

omit hsteps in
theorem parts_moves (types : List TypeId) :
    Moves step (parts env describe types) :=
  .forEach fun type => (hdescribe (.part type)).map

omit hsteps in
theorem tupleDefinition_moves (elements : List TypeId) (d : Definition) :
    Moves step (tupleDefinition env describe elements d) :=
  (parts_moves hdescribe elements).bind fun _ => .pure _

omit hsteps in
theorem mapDefinition_moves (key : IndexKey) (value : TypeId) (d : Definition) :
    Moves step (mapDefinition env describe key value d) := by
  refine (hdescribe (.mapValue value)).bind fun _ => ?_
  cases key <;> exact .pure _

omit hsteps in
theorem subtypeDefinition_moves (name : String) :
    Moves step (subtypeDefinition env describe name) := by
  unfold subtypeDefinition
  split
  · exact (hdescribe (.part _)).map
  · exact .throw _

omit hsteps in
theorem abstractDefinition_moves (node : TypeNode) (d : Definition) :
    Moves step (abstractDefinition env describe node d) :=
  (Run.Moves.ofExcept _).bind fun _ =>
    (Run.Moves.forEach (subtypeDefinition_moves hdescribe)).bind fun _ => .pure _

theorem unionMember_moves {property : Option SymbolId} {member : TypeId}
    (hmark : ∀ {id p}, property = some id → SaysUndefined env describe member →
      step p (p.markAbsent id)) (parts : UnionParts) :
    Moves step (unionMember env describe property parts member) := by
  refine .ofExcept_bind fun node hnode => ?_
  split
  · exact .pure _
  · rename_i hliteral
    -- What the description gives decides whether there is a mark, so the run is followed by hand.
    intro p
    have hmoves := hdescribe (.part member) p
    rw [Run.on_bind]
    cases hmember : (describe member (Context.nested env.settings)).on p with
    | mk result p₁ =>
        rw [hmember] at hmoves
        cases result with
        | error failure => exact hmoves
        | ok d =>
            refine hmoves.trans ?_
            dsimp only
            split
            · rename_i hbare
              split
              · exact .single (hmark rfl ⟨⟨node, hnode, hliteral⟩, d, p, p₁, hmember, hbare⟩)
              · exact .refl
            · exact .refl
            · split
              · exact ((notice_moves hsteps _).bind fun _ => .pure _) p₁
              · exact .refl

theorem unionMembers_moves {property : Option SymbolId} {members : List TypeId}
    (hmark : ∀ {id p member}, property = some id → member ∈ members →
      SaysUndefined env describe member → step p (p.markAbsent id))
    (parts : UnionParts) :
    Moves step (unionMembers env describe property parts members) := by
  induction members generalizing parts with
  | nil => exact .pure parts
  | cons member rest ih =>
      refine (unionMember_moves hsteps hdescribe (fun hid => hmark hid List.mem_cons_self)
        parts).bind ?_
      exact ih fun hid hmember => hmark hid (List.mem_cons_of_mem _ hmember)

theorem propertyDefinition_moves (id : SymbolId) :
    Moves step (propertyDefinition env describe id) := by
  refine .ofExcept_bind fun property hproperty => .ofExcept_bind fun declaration hdeclared => ?_
  split
  · exact (notice_moves hsteps _).bind fun _ => .pure _
  · rename_i htype
    refine .ofExcept_bind fun reffed hreffed => ?_
    have place : PropertyPlace env id declaration _
        ⟨env.settings.useRef, .oneOf, some id, reffed⟩ :=
      ⟨⟨property, hproperty, htype⟩, hdeclared, reffed, hreffed, rfl⟩
    refine (hdescribe (.property place)).bind fun d => ?_
    split
    · exact .pure none
    · exact (addDefault_moves hsteps property _ d).map

theorem objectProperty_moves (parts : ObjectParts) (id : SymbolId) :
    Moves step (objectProperty env describe parts id) := by
  refine (Run.Moves.ofExcept _).bind fun property =>
    (propertyDefinition_moves hsteps hdescribe id).bind fun result => ?_
  split
  · exact .pure parts
  · exact fun _ => .refl

theorem objectProperties_moves (properties : List SymbolId) (parts : ObjectParts) :
    Moves step (objectProperties env describe parts properties) := by
  induction properties generalizing parts with
  | nil => exact .pure parts
  | cons id rest ih => exact (objectProperty_moves hsteps hdescribe parts id).bind ih

theorem objectDefinition_moves (properties : List SymbolId) (d : Definition) :
    Moves step (objectDefinition env describe properties d) :=
  (objectProperties_moves hsteps hdescribe properties _).bind fun _ => .pure _

theorem functionDefinition_moves (node : TypeNode) (d : Definition) :
    Moves step (functionDefinition env describe node d) := by
  unfold functionDefinition
  split
  · exact .pure _
  · exact (notice_moves hsteps _).bind fun _ => objectDefinition_moves hsteps hdescribe [] d

theorem render_moves {shape : Shape} {ctx : Context}
    (hmark : ∀ {id p members member}, shape = .union members → ctx.property = some id →
      member ∈ members → SaysUndefined env describe member → step p (p.markAbsent id))
    (node : TypeNode) (d : Definition) :
    Moves step (render env describe node ctx shape d) := by
  cases shape with
  | union members =>
      exact (unionMembers_moves hsteps hdescribe (hmark rfl) _).bind fun _ => .pure _
  | intersection members => exact (parts_moves hdescribe members).bind fun _ => .pure _
  | tuple elements => exact tupleDefinition_moves hdescribe elements d
  | array element => exact (hdescribe (.part element)).bind fun _ => .pure _
  | unsupported => exact (notice_moves hsteps _).bind fun _ => .pure d
  | enum declaration => exact (notices_moves hsteps _).bind fun _ => .pure _
  | function => exact functionDefinition_moves hsteps hdescribe node d
  | map key value => exact mapDefinition_moves hdescribe key value d
  | abstract => exact abstractDefinition_moves hdescribe node d
  | object properties => exact objectDefinition_moves hsteps hdescribe properties d
  | _ => exact .pure _

theorem complete_moves {node : TypeNode} {ctx : Context} {d : Definition}
    (hmark : ∀ {id p members member}, d.hasType = false → node.kind = .union members →
      ctx.property = some id → member ∈ members → SaysUndefined env describe member →
      step p (p.markAbsent id)) :
    Moves step (complete env describe node ctx d) := by
  unfold complete
  split
  · exact .pure d
  · rename_i htype
    refine .ofExcept_bind fun shape hshape => ?_
    refine render_moves hsteps hdescribe (fun hunion => ?_) node d
    exact hmark (Bool.eq_false_iff.2 htype) ((Shape.tells_ofNode hshape).union _ hunion)

/-! ## Types -/

/-- The name is still reserved for the type when its definition is stored. -/
theorem registerType_moves {type : TypeId} {ctx : Context} {name : String}
    {node : TypeNode} {remarks : Remarks} (hnode : env.graph.typeNode type = .ok node)
    (hremarks : Remarks.of env node ctx = .ok remarks)
    (hname : referenceOf env type ctx = .ok (some name))
    (hmark : ∀ {id p}, MayMark env describe type ctx id → step p (p.markAbsent id)) :
    Moves step
      (registerType env describe type node ctx name (remarks.onType false)) := by
  intro p
  have hregistered : (Describing.isRegistered name).on p = (.ok (p.registry.contains name), p) :=
    rfl
  rw [registerType, Run.on_bind, hregistered]
  dsimp only
  split
  · exact .refl
  · rename_i htaken
    rw [Dict.contains_iff_mem_keys] at htaken
    let d := titled env.settings name (remarks.onType false)
    have htype : d.hasType = (remarks.onType false).hasType := hasType_titled _ _ _
    have hmoves : Moves step (complete env describe node ctx d) :=
      complete_moves hsteps hdescribe fun hd hkind hid hmember hsays =>
        hmark ⟨hid, node, remarks, some name, _, hnode, hremarks, hname, htype ▸ hd, hkind, _,
          hmember, hsays⟩
    have hmoves := hmoves (p.reserve name type ctx)
    refine .head (hsteps.unmarked (.reserve hname htaken) rfl) ?_
    change ReflTransGen step (p.reserve name type ctx)
      (Run.on (complete env describe node ctx d >>= _) _).2
    rw [Run.on_bind]
    cases hcomplete : (complete env describe node ctx d).on (p.reserve name type ctx) with
    | mk result p₁ =>
        rw [hcomplete] at hmoves
        cases result with
        | error failure => exact hmoves
        | ok d' =>
            obtain ⟨made, -, hmade⟩ := complete_ok hcomplete
            have hrendered : RenderedFrom env name type ctx d' :=
              ⟨node, remarks, made, hnode, hremarks, hmade⟩
            have hreserved := hsteps.history_subset hmoves List.mem_cons_self
            exact hmoves.tail (hsteps.unmarked (.fill hrendered hreserved) rfl)

theorem describeType_moves {type : TypeId} {ctx : Context}
    (hmark : ∀ {id p}, MayMark env describe type ctx id → step p (p.markAbsent id)) :
    Moves step (describeType env describe type ctx) := by
  refine .ofExcept_bind fun node hnode => .ofExcept_bind fun symbol hsymbol =>
    .ofExcept_bind fun name hname => .ofExcept_bind fun remarks hremarks => ?_
  rw [← referenceOf_eq hnode hsymbol] at hname
  cases name with
  | none =>
      refine (complete_moves hsteps hdescribe fun hd hkind hid hmember hsays => ?_).bind
        fun _ => .pure _
      exact hmark ⟨hid, node, remarks, none, _, hnode, hremarks, hname, hd, hkind, _, hmember,
        hsays⟩
  | some name =>
      intro p
      have hregister := registerType_moves hsteps hdescribe hnode hremarks hname hmark p
      rw [Run.on_bind]
      cases houtcome : (registerType env describe type node ctx name (remarks.onType false)).on p
        with
      | mk result p₁ =>
          rw [houtcome] at hregister
          cases result with
          | error failure => exact hregister
          | ok _ =>
              refine hregister.tail (hsteps.unmarked (.refer hname ?_) rfl)
              obtain ⟨taken, rfl⟩ | ⟨-, p₂, d', -, rfl⟩ := registerType_ok houtcome
              · exact taken
              · exact Dict.mem_keys_insert.2 (.inl rfl)

end

theorem typeDefinition_moves (depth : Nat) (type : TypeId) (ctx : Context) :
    Moves (Step env) (typeDefinition env depth type ctx) := by
  induction depth generalizing type ctx with
  | zero => exact (Run.Moves.ofExcept _).bind fun _ => .throw _
  | succ depth ih => exact describeType_moves allows_step (fun _ => ih _ _) fun _ => .markAbsent _ _

end Schema

end TypeSchema
