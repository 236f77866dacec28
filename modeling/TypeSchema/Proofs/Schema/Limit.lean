import TypeSchema.Proofs.Schema.Failures
import TypeSchema.Proofs.Schema.TypeDescribed

/-!
# Runs that do not nest too deeply

Describing a type fails at the recursion limit only if the description of one of its components
does.  What else can fail on the way, such as a look-up, fails for another reason.
-/

namespace TypeSchema

/-! ## Outcomes and runs -/

/-- Whatever comes out, it is not that something nests too deeply. -/
def NotTooDeep {α : Type} (outcome : Except Failure α) : Prop :=
  ∀ name, outcome ≠ .error (.recursionLimit name)

/-- From a state that meets the demand the run ends in one that meets it, and it does not fail
because something nests too deeply. -/
def Run.NotTooDeep {σ α : Type} (keeps : σ → Prop) (run : Run σ α) : Prop :=
  ∀ state, keeps state → keeps (run.on state).2 ∧ TypeSchema.NotTooDeep (run.on state).1

def Failure.IsTooDeep (failure : Failure) : Prop := ∃ name, failure = .recursionLimit name

namespace NotTooDeep

variable {α β : Type} {outcome : Except Failure α}

theorem iff_avoids : NotTooDeep outcome ↔ Avoids Failure.IsTooDeep outcome := by
  constructor
  · rintro h _ heq ⟨name, rfl⟩
    exact h name heq
  · exact fun h name heq => h _ heq ⟨name, rfl⟩

theorem ok (value : α) : NotTooDeep (.ok value) := iff_avoids.2 (.ok value)

end NotTooDeep

namespace Run.NotTooDeep

variable {σ α β : Type} {keeps : σ → Prop}

theorem iff_avoids {run : Run σ α} :
    NotTooDeep keeps run ↔ Run.Avoids keeps Failure.IsTooDeep run :=
  forall₂_congr fun _ _ => and_congr_right fun _ => TypeSchema.NotTooDeep.iff_avoids

theorem pure (value : α) : NotTooDeep keeps (Pure.pure value : Run σ α) :=
  iff_avoids.2 (.pure value)

theorem modify {f : σ → σ} (h : ∀ state, keeps state → keeps (f state)) :
    NotTooDeep keeps (MonadState.modifyGet fun state => ((), f state) : Run σ Unit) :=
  iff_avoids.2 (.modify h)

theorem bind {run : Run σ α} {next : α → Run σ β} (h : NotTooDeep keeps run)
    (hnext : ∀ value, NotTooDeep keeps (next value)) : NotTooDeep keeps (run >>= next) :=
  iff_avoids.2 ((iff_avoids.1 h).bind fun value => iff_avoids.1 (hnext value))

theorem ofExcept_bind {outcome : Except Failure α} {next : α → Run σ β}
    (h : TypeSchema.NotTooDeep outcome)
    (hnext : ∀ value, outcome = .ok value → NotTooDeep keeps (next value)) :
    NotTooDeep keeps (Run.ofExcept outcome >>= next) :=
  iff_avoids.2 (.ofExcept_bind (TypeSchema.NotTooDeep.iff_avoids.1 h)
    fun value hvalue => iff_avoids.1 (hnext value hvalue))

end Run.NotTooDeep

/-! ## Look-ups -/

namespace Graph

variable (g : Graph)

theorem typeNode_notTooDeep (id : TypeId) : NotTooDeep (g.typeNode id) := by
  unfold typeNode
  split <;> intro name h <;> cases h

theorem symbol_notTooDeep (id : SymbolId) : NotTooDeep (g.symbol id) := by
  unfold Graph.symbol
  split <;> intro name h <;> cases h

theorem declaration_notTooDeep (id : DeclarationId) : NotTooDeep (g.declaration id) := by
  unfold Graph.declaration
  split <;> intro name h <;> cases h

theorem symbol_avoids (id : SymbolId) : Avoids Failure.IsTooDeep (g.symbol id) :=
  NotTooDeep.iff_avoids.1 (g.symbol_notTooDeep id)

end Graph

theorem Shape.symbolOf_notTooDeep (g : Graph) (id : Option SymbolId) :
    NotTooDeep (Shape.symbolOf g id) := by
  cases id with
  | none => exact .ok none
  | some id => exact NotTooDeep.iff_avoids.2 (g.symbol_avoids id).map

namespace Schema

variable (env : Environment) (node : TypeNode) (ctx : Context)

theorem readable_tooDeep : Readable env Failure.IsTooDeep where
  types id _ := NotTooDeep.iff_avoids.1 (env.graph.typeNode_notTooDeep id)
  symbols id _ := env.graph.symbol_avoids id
  declarations id _ := NotTooDeep.iff_avoids.1 (env.graph.declaration_notTooDeep id)
  keys _ _ := nofun
  arities _ _ := nofun
  subtypes _ := nofun
  heirs _ _ _ := nofun

theorem referenceName_notTooDeep (symbol : Option Symbol) :
    NotTooDeep (referenceName env node symbol ctx) :=
  NotTooDeep.iff_avoids.2 (referenceName_avoids (fun s _ => env.graph.symbol_avoids s) symbol)

theorem remarks_notTooDeep : NotTooDeep (Remarks.of env node ctx) :=
  NotTooDeep.iff_avoids.2 (remarks_avoids (fun s _ => env.graph.symbol_avoids s)
    (fun s _ => env.graph.symbol_avoids s) fun s _ => env.graph.symbol_avoids s)

variable {env node} {keeps : Progress → Prop} {describe : Describe} {type : TypeId}

theorem complete_notTooDeep
    (hkeeps : ∀ {p p' : Progress}, p'.registry = p.registry → keeps p → keeps p')
    (hnode : env.graph.typeNode type = .ok node)
    (hdescribe : ∀ {child ctx}, child ∈ components env type → Inside env child ctx →
      Run.NotTooDeep keeps (describe child ctx)) (ctx : Context) (d : Definition) :
    Run.NotTooDeep keeps (complete env describe node ctx d) :=
  Run.NotTooDeep.iff_avoids.2 (complete_avoids (readable_tooDeep env) hkeeps hnode
    (fun s _ => env.graph.symbol_avoids s)
    (fun hchild hinside => Run.NotTooDeep.iff_avoids.1 (hdescribe hchild hinside)) d)

end Schema

end TypeSchema
