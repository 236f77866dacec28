import Mathlib.Data.List.Forall2
import TypeSchema.Schema.Run

/-!
# Runs side by side

Two runs are parallel if from related states they either both end with related values in related
states, or both fail in the same way.  What is done after a failure is seen nowhere, so nothing is
asked of the states that are left then.
-/

namespace TypeSchema

/-- Failures of one kind, whatever they name. -/
def Failure.SameVariant (failure failure' : Failure) : Prop := failure.ctorIdx = failure'.ctorIdx

/-! ## Outcomes -/

inductive Parallel {α α' : Type} (R : α → α' → Prop) :
    Except Failure α → Except Failure α' → Prop where
  | ok {a : α} {a' : α'} (h : R a a') : Parallel R (.ok a) (.ok a')
  | error {failure failure' : Failure} (h : failure.SameVariant failure') :
    Parallel R (.error failure) (.error failure')

namespace Parallel

variable {α α' β β' : Type} {R : α → α' → Prop} {Q : β → β' → Prop}
  {outcome : Except Failure α} {outcome' : Except Failure α'}

theorem refl (outcome : Except Failure α) : Parallel Eq outcome outcome := by
  cases outcome with
  | ok a => exact ok rfl
  | error failure => exact error rfl

theorem bind {next : α → Except Failure β} {next' : α' → Except Failure β'}
    (h : Parallel R outcome outcome')
    (hnext : ∀ a a', R a a' → Parallel Q (next a) (next' a')) :
    Parallel Q (outcome >>= next) (outcome' >>= next') := by
  cases h with
  | ok hvalue => exact hnext _ _ hvalue
  | error hfailure => exact error hfailure

theorem map {f : α → β} {f' : α' → β'} (h : Parallel R outcome outcome')
    (hf : ∀ a a', R a a' → Q (f a) (f' a')) : Parallel Q (f <$> outcome) (f' <$> outcome') := by
  cases h with
  | ok hvalue => exact ok (hf _ _ hvalue)
  | error hfailure => exact error hfailure

end Parallel

/-! ## Runs -/

namespace Run

variable {σ σ' α α' β β' : Type} {S : σ → σ' → Prop} {R : α → α' → Prop} {Q : β → β' → Prop}

/-- What two runs end with: related values and states, or failures of one kind. -/
inductive Ends (S : σ → σ' → Prop) (R : α → α' → Prop) :
    Except Failure α × σ → Except Failure α' × σ' → Prop where
  | ok {a : α} {a' : α'} {state : σ} {state' : σ'} (h : R a a') (hstate : S state state') :
    Ends S R (.ok a, state) (.ok a', state')
  | error {failure failure' : Failure} {state : σ} {state' : σ'}
    (h : failure.SameVariant failure') : Ends S R (.error failure, state) (.error failure', state')

theorem Ends.refl (final : Except Failure α × σ) : Ends Eq Eq final final := by
  obtain ⟨result, state⟩ := final
  cases result with
  | ok a => exact ok rfl rfl
  | error failure => exact error rfl

theorem Ends.outcome {final : Except Failure α × σ} {final' : Except Failure α' × σ'}
    (h : Ends S R final final') : TypeSchema.Parallel R final.1 final'.1 := by
  cases h with
  | ok hvalue _ => exact .ok hvalue
  | error hfailure => exact .error hfailure

/-- From related states the runs end alike. -/
def Parallel (S : σ → σ' → Prop) (R : α → α' → Prop) (run : Run σ α) (run' : Run σ' α') : Prop :=
  ∀ state state', S state state' → Ends S R (run.on state) (run'.on state')

namespace Parallel

theorem pure {a : α} {a' : α'} (h : R a a') :
    Parallel S R (Pure.pure a : Run σ α) (Pure.pure a' : Run σ' α') :=
  fun _ _ hstate => .ok h hstate

theorem throw {failure failure' : Failure} (h : failure.SameVariant failure') :
    Parallel S R (MonadExcept.throw failure : Run σ α) (MonadExcept.throw failure' : Run σ' α') :=
  fun _ _ _ => .error h

theorem ofExcept {outcome : Except Failure α} {outcome' : Except Failure α'}
    (h : TypeSchema.Parallel R outcome outcome') :
    Parallel S R (Run.ofExcept outcome) (Run.ofExcept outcome') := by
  cases h with
  | ok hvalue => exact pure hvalue
  | error hfailure => exact throw hfailure

theorem get : Parallel S S (MonadState.get : Run σ σ) (MonadState.get : Run σ' σ') :=
  fun _ _ hstate => .ok hstate hstate

theorem modify {f : σ → σ} {f' : σ' → σ'} (h : ∀ state state', S state state' →
      S (f state) (f' state')) :
    Parallel S Eq (MonadState.modifyGet fun state => ((), f state) : Run σ Unit)
      (MonadState.modifyGet fun state => ((), f' state) : Run σ' Unit) :=
  fun state state' hstate => .ok rfl (h state state' hstate)

theorem bind {run : Run σ α} {run' : Run σ' α'} {next : α → Run σ β} {next' : α' → Run σ' β'}
    (h : Parallel S R run run') (hnext : ∀ a a', R a a' → Parallel S Q (next a) (next' a')) :
    Parallel S Q (run >>= next) (run' >>= next') := by
  intro state state' hstate
  have hend := h state state' hstate
  rw [on_bind, on_bind]
  generalize run.on state = final at hend ⊢
  generalize run'.on state' = final' at hend ⊢
  cases hend with
  | ok hvalue hmiddle => exact hnext _ _ hvalue _ _ hmiddle
  | error hfailure => exact .error hfailure

theorem map {run : Run σ α} {run' : Run σ' α'} {f : α → β} {f' : α' → β'}
    (h : Parallel S R run run') (hf : ∀ a a', R a a' → Q (f a) (f' a')) :
    Parallel S Q (f <$> run) (f' <$> run') := by
  rw [map_eq_pure_bind, map_eq_pure_bind]
  exact h.bind fun a a' hvalue => pure (hf a a' hvalue)

/-- Runs that end like parallel ones are parallel. -/
theorem replace {run other : Run σ α} {run' other' : Run σ' α'} (h : Parallel S R run run')
    (hother : Parallel Eq Eq other run) (hother' : Parallel Eq Eq other' run') :
    Parallel S R other other' := by
  intro state state' hstate
  have hend := h state state' hstate
  have hend₁ := hother state state rfl
  have hend₂ := hother' state' state' rfl
  generalize run.on state = final at hend hend₁
  generalize run'.on state' = final' at hend hend₂
  generalize other.on state = final₁ at hend₁ ⊢
  generalize other'.on state' = final₂ at hend₂ ⊢
  cases hend with
  | ok hvalue hfinal =>
      cases hend₁ with
      | ok heq hstate₁ =>
          cases hend₂ with
          | ok heq' hstate₂ =>
              subst heq hstate₁ heq' hstate₂
              exact .ok hvalue hfinal
  | error hfailure =>
      cases hend₁ with
      | error hfailure₁ =>
          cases hend₂ with
          | error hfailure₂ =>
              exact .error ((hfailure₁.trans hfailure).trans hfailure₂.symm)

theorem forM {act : β → Run σ Unit} {act' : β' → Run σ' Unit} {elements : List β}
    {elements' : List β'} (helements : List.Forall₂ Q elements elements')
    (h : ∀ b b', Q b b' → Parallel S Eq (act b) (act' b')) :
    Parallel S Eq (elements.forM act) (elements'.forM act') := by
  induction helements with
  | nil => exact pure rfl
  | cons hfirst _ ih => exact (h _ _ hfirst).bind fun _ _ _ => ih

theorem forEach {S : Progress → Progress → Prop} {step : α → Describing β}
    {step' : α' → Describing β} {elements : List α} {elements' : List α'}
    (helements : List.Forall₂ R elements elements')
    (h : ∀ a a', R a a' → Parallel S Eq (step a) (step' a')) :
    Parallel S Eq (Describing.forEach step elements) (Describing.forEach step' elements') := by
  induction helements with
  | nil => exact pure rfl
  | cons hfirst _ ih =>
      refine (h _ _ hfirst).bind fun b _ hb => ih.bind fun bs _ hbs => ?_
      subst hb hbs
      exact pure rfl

end Parallel

end Run

end TypeSchema
