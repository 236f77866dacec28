import TypeSchema.Proofs.Document.Entries
import TypeSchema.Proofs.Validation.Names

/-!
# Independence of the past

What was described before is not seen in the definition of a type that stands at the top.  The
registry decides only whether a definition is made for a name, and what is given for the type is the
reference either way.  The marked properties decide what is required, but whatever was described,
no property is marked that cannot be absent, and one that can be is marked when its type is
described, just before it is asked for.
-/

namespace TypeSchema.Schema

variable {env : Environment} {p p' : Progress} {type : TypeId} {ctx : Context} {d d' : Definition}
  {made : List Described} {depth : Nat}

/-- Types that stand at the top, and whether to refer to them. -/
def standingCalls (calls : List (TypeId × Bool)) : List (TypeId × Context) :=
  calls.map fun call => (call.1, Context.standing call.2)

/-! ## Marks -/

theorem marksAbsent_initial : MarksAbsent env .initial :=
  fun _ h => absurd h List.not_mem_nil

theorem MarksAbsent.typeDefinition (h : MarksAbsent env p) (hplace : InPlace env type ctx) :
    MarksAbsent env ((typeDefinition env depth type ctx).on p).2 :=
  fun id hid => (typeDefinition_marks hplace hid).elim (h id) fun habsent => habsent

/-- Successful or not, no description of a type at the top marks a property that cannot be
absent. -/
theorem MarksAbsent.defineAll (h : MarksAbsent env p) (calls : List (TypeId × Bool)) :
    MarksAbsent env (defineAll env (standingCalls calls) p).2 := by
  induction calls generalizing p with
  | nil => exact h
  | cons call rest ih =>
      have hfirst : MarksAbsent env ((define env call.1 (Context.standing call.2)).on p).2 :=
        h.typeDefinition (inPlace_standing call.2)
      exact ih hfirst

/-! ## Definitions -/

/-- What is given for a type, whatever it refers to. -/
abbrev IsGiven (env : Environment) (type : TypeId) (ctx : Context) (d : Definition) : Prop :=
  Given env (fun _ _ _ => True) type ctx d

theorem Describes.isGiven
    (hdescribe : ∀ {type ctx d p p'}, (typeDefinition env depth type ctx).on p = (.ok d, p') →
      MarksAbsent env p' → IsGiven env type ctx d)
    (h : Describes (typeDefinition env depth) p made p') (hmarks : MarksAbsent env p') :
    ∀ m ∈ made, IsGiven env m.type m.ctx m.definition := by
  induction h with
  | nil => exact fun m hm => absurd hm List.not_mem_nil
  | cons _ first rest ih =>
      -- the marks at the end include those that there were when the first was described
      have hfirst := hdescribe first (hmarks.of_subset rest.marks_subset)
      exact List.forall_mem_cons.2 ⟨hfirst, ih hmarks⟩

/-- From whatever progress it starts, a run gives what is given for the type, as long as only
properties that may be absent are marked. -/
theorem typeDefinition_isGiven (hinline : InlinesAbsent env)
    (h : (typeDefinition env depth type ctx).on p = (.ok d, p')) (hmarks : MarksAbsent env p') :
    IsGiven env type ctx d := by
  revert hmarks
  apply typeDefinition_induction
    (R := fun type ctx _ d p' => MarksAbsent env p' → IsGiven env type ctx d) ?_ h
  intro depth ih type ctx p d p' hrun hmarks
  cases hrun with
  | inlined hnode hremarks hname hcomplete =>
      obtain ⟨made, hmade, hd⟩ := complete_completes hinline hcomplete hmarks
      exact .inlined hnode hremarks hname (hmade.isGiven ih hmarks) hd
  | known hnode hremarks hname | new hnode hremarks hname =>
      exact .referred hnode hremarks hname trivial

theorem define_isGiven (hinline : InlinesAbsent env) {asRef : Bool} (hp : MarksAbsent env p)
    (h : ((define env type (Context.standing asRef)).on p).1 = .ok d) :
    IsGiven env type (Context.standing asRef) d := by
  have hmarks : MarksAbsent env ((define env type (Context.standing asRef)).on p).2 :=
    hp.typeDefinition (inPlace_standing asRef)
  exact typeDefinition_isGiven hinline (Prod.ext h rfl) hmarks

/-- After any two sequences of descriptions of types at the top, some of which may have failed, a
type at the top has the same definition, if no union has a symbol of its own and aliases are no
names. -/
theorem define_independent_of_past (hunions : UnionsUnnamed env.graph)
    (hsetting : env.settings.useTypeAliasRef = false) {calls calls' : List (TypeId × Bool)}
    {asRef : Bool}
    (h : ((define env type (Context.standing asRef)).on
      (defineAll env (standingCalls calls) .initial).2).1 = .ok d)
    (h' : ((define env type (Context.standing asRef)).on
      (defineAll env (standingCalls calls') .initial).2).1 = .ok d') : d = d' := by
  have hinline := inlinesAbsent_of_unions hunions hsetting
  have hgiven := define_isGiven hinline (marksAbsent_initial.defineAll calls) h
  exact hgiven.unique (define_isGiven hinline (marksAbsent_initial.defineAll calls') h')

/-! ## A name that was taken before -/

/-- `A` mentions `Point`, so that the name is taken; there is no type `C`, so that fails. -/
def cornerCalls : List (TypeId × Bool) := [(⟨"A"⟩, true), (⟨"C"⟩, false)]

theorem define_independent_of_past_corner :
    ∃ d d', ((define (Document.cornerEnvironment []) ⟨"Point"⟩ (Context.standing false)).on
        (defineAll (Document.cornerEnvironment []) (standingCalls []) .initial).2).1 = .ok d ∧
      ((define (Document.cornerEnvironment []) ⟨"Point"⟩ (Context.standing false)).on
        (defineAll (Document.cornerEnvironment []) (standingCalls cornerCalls) .initial).2).1 =
          .ok d' ∧ d = d' := by
  obtain ⟨d, p, h, -⟩ : ∃ d p,
      (define (Document.cornerEnvironment []) ⟨"Point"⟩ (Context.standing false)).on
        (defineAll (Document.cornerEnvironment []) (standingCalls []) .initial).2 = (.ok d, p) ∧
      d.contains "required" = true := Run.exists_ok (by decide +kernel)
  obtain ⟨d', p', h', -⟩ : ∃ d p,
      (define (Document.cornerEnvironment []) ⟨"Point"⟩ (Context.standing false)).on
        (defineAll (Document.cornerEnvironment []) (standingCalls cornerCalls) .initial).2 =
          (.ok d, p) ∧
      p.registry.contains "Point" = true := Run.exists_outcome (by decide +kernel)
  have hd := congrArg Prod.fst h
  have hd' := congrArg Prod.fst h'
  exact ⟨d, d', hd, hd', define_independent_of_past (by decide +kernel) rfl hd hd'⟩

end TypeSchema.Schema
