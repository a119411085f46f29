import ParadigmScan.Failure

/-!
This module contains how computations that can fail are taken apart, with and without a state.
-/

namespace ParadigmScan

variable {α β ε : Type} {x : Except ε α} {f : α → Except ε β}

theorem bind_eq_ok_iff {result : β} :
    (x >>= f) = .ok result ↔ ∃ value, x = .ok value ∧ f value = .ok result := by
  cases x <;> simp [bind, Except.bind]

theorem bind_eq_error_iff {error : ε} :
    (x >>= f) = .error error ↔ x = .error error ∨ ∃ value, x = .ok value ∧ f value = .error error := by
  cases x <;> simp [bind, Except.bind]

theorem mapError_eq_ok_iff {ε' : Type} {g : ε → ε'} {result : α} :
    x.mapError g = .ok result ↔ x = .ok result := by
  cases x with
  | ok value =>
    change (.ok value : Except ε' α) = .ok result ↔ _
    simp
  | error cause =>
    change (.error (g cause) : Except ε' α) = .ok result ↔ _
    simp

section State

variable {σ : Type} {step : ExceptT ε (StateM σ) α} {next : α → ExceptT ε (StateM σ) β}
  {state state' : σ}

theorem run_bind_of_ok {result : α} (h : step.run.run state = (.ok result, state')) :
    (step >>= next).run.run state = (next result).run.run state' := by
  rw [ExceptT.run_bind]
  rw [StateT.run_bind]
  rw [h]
  rfl

theorem run_bind_of_error {error : ε} (h : step.run.run state = (.error error, state')) :
    (step >>= next).run.run state = (.error error, state') := by
  rw [ExceptT.run_bind]
  rw [StateT.run_bind]
  rw [h]
  rfl

end State

end ParadigmScan
