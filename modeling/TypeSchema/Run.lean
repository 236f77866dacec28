import TypeSchema.Failure

/-!
# Runs

A run works on a state and ends with a value or a failure.  What it did to the state before failing
stays done.
-/

namespace TypeSchema

theorem outcome_bind_eq_ok {ε α β : Type} {outcome : Except ε α}
    {next : α → Except ε β} {value : β} :
    (outcome >>= next) = .ok value ↔ ∃ a, outcome = .ok a ∧ next a = .ok value := by
  cases outcome <;> simp [bind, Except.bind]

theorem outcome_map_eq_ok {ε α β : Type} {outcome : Except ε α} {f : α → β} {value : β} :
    outcome.map f = .ok value ↔ ∃ a, outcome = .ok a ∧ f a = value := by
  cases outcome <;> simp [Except.map]

abbrev Run (σ : Type) := ExceptT Failure (StateM σ)

namespace Run

variable {σ α : Type}

def ofExcept : Except Failure α → Run σ α
  | .ok value => pure value
  | .error failure => throw failure

def on (run : Run σ α) (state : σ) : Except Failure α × σ := StateT.run (ExceptT.run run) state

@[simp] theorem on_pure (value : α) (state : σ) :
    (pure value : Run σ α).on state = (.ok value, state) := rfl

@[simp] theorem on_throw (failure : Failure) (state : σ) :
    (throw failure : Run σ α).on state = (.error failure, state) := rfl

@[simp] theorem on_ofExcept (outcome : Except Failure α) (state : σ) :
    (ofExcept outcome : Run σ α).on state = (outcome, state) := by
  cases outcome <;> rfl

theorem on_bind {β : Type} (run : Run σ α) (next : α → Run σ β) (state : σ) :
    (run >>= next).on state =
      match run.on state with
      | (.ok value, state) => (next value).on state
      | (.error failure, state) => (.error failure, state) := by
  change (StateT.run (ExceptT.run (run >>= next)) state : Id _) = _
  simp only [on, ExceptT.run_bind, StateT.run_bind]
  generalize hs : (StateT.run (ExceptT.run run) state : Id _) = outcome
  obtain ⟨r, s⟩ := outcome
  cases r <;> rfl

theorem on_bind_eq_ok {β : Type} {run : Run σ α} {next : α → Run σ β} {state final : σ}
    {value : β} :
    (run >>= next).on state = (.ok value, final) ↔
      ∃ a middle, run.on state = (.ok a, middle) ∧ (next a).on middle = (.ok value, final) := by
  rw [on_bind]
  generalize run.on state = outcome
  obtain ⟨result, middle⟩ := outcome
  cases result with
  | error failure => simp
  | ok a =>
    constructor
    · intro h
      exact ⟨a, middle, rfl, h⟩
    · rintro ⟨a', middle', h, h'⟩
      cases h
      exact h'

theorem on_map_eq_ok {β : Type} {f : α → β} {run : Run σ α} {state final : σ} {value : β} :
    (f <$> run).on state = (.ok value, final) ↔
      ∃ a, run.on state = (.ok a, final) ∧ f a = value := by
  rw [map_eq_pure_bind, on_bind_eq_ok]
  constructor
  · rintro ⟨a, middle, h, h'⟩
    cases h'
    exact ⟨a, h, rfl⟩
  · rintro ⟨a, h, rfl⟩
    exact ⟨a, final, h, rfl⟩

theorem on_ofExcept_eq_ok {outcome : Except Failure α} {state final : σ} {value : α} :
    (ofExcept outcome : Run σ α).on state = (.ok value, final) ↔
      outcome = .ok value ∧ final = state := by
  rw [on_ofExcept, Prod.mk.injEq, eq_comm (a := state)]

theorem exists_outcome {run : Run σ α} {state : σ} {check : α → σ → Bool}
    (h : (run.on state).1.toOption.any (check · (run.on state).2) = true) :
    ∃ value final, run.on state = (.ok value, final) ∧ check value final = true := by
  generalize run.on state = outcome at h
  obtain ⟨result, final⟩ := outcome
  cases result with
  | error failure => cases h
  | ok value => exact ⟨value, final, rfl, h⟩

theorem exists_ok {run : Run σ α} {state : σ} {check : α → Bool}
    (h : (run.on state).1.toOption.any check = true) :
    ∃ value final, run.on state = (.ok value, final) ∧ check value = true :=
  @exists_outcome σ α run state (fun value _ => check value) h

@[simp] theorem on_modify (f : σ → σ) (state : σ) :
    (modify f : Run σ Unit).on state = (.ok (), f state) := rfl

@[simp] theorem on_get (state : σ) : (get : Run σ σ).on state = (.ok state, state) := rfl

end Run

end TypeSchema
