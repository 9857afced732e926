import Mathlib.Data.List.Basic

/-!
# Retries

A failed operation is tried again after a transient error, a bounded number of
times, in the state the attempt before has left.
-/

namespace AlignedLayer

inductive RetryError (Error : Type) where
  | transient (error : Error)
  | permanent (error : Error)
  deriving DecidableEq

section

variable {Error State Value : Type}

def RetryError.inner : RetryError Error → Error
  | .transient error => error
  | .permanent error => error

/-- `retry_function` from an attempt on; the attempts are numbered from 0. -/
def retryFunction (function : Nat → State → Except (RetryError Error) Value × State) :
    (maxTimes attempt : Nat) → State → Except (RetryError Error) Value × State
  | 0, attempt, state => function attempt state
  | maxTimes + 1, attempt, state =>
      match function attempt state with
      | (.error (.transient _), after) => retryFunction function maxTimes (attempt + 1) after
      | answer => answer

variable {function : Nat → State → Except (RetryError Error) Value × State}
  {maxTimes attempt : Nat} {state : State}

/-- What every attempt keeps, and what every answer satisfies. -/
theorem retryFunction_rule {Kept : State → Prop}
    {Answered : Except (RetryError Error) Value × State → Prop}
    (attempts : ∀ attempt state, Kept state →
      Kept (function attempt state).2 ∧ Answered (function attempt state))
    (kept : Kept state) :
    Kept (retryFunction function maxTimes attempt state).2 ∧
      Answered (retryFunction function maxTimes attempt state) := by
  induction maxTimes generalizing attempt state with
  | zero => exact attempts attempt state kept
  | succ maxTimes induction =>
      have once := attempts attempt state kept
      rw [retryFunction]
      split
      · rename_i after transient
        rw [transient] at once
        exact induction once.1
      · exact once

/-- An attempt that succeeds in every state is enough, if none of the earlier
ones fails for good. -/
theorem retryFunction_succeeds {successful : Nat} (within : successful ≤ maxTimes)
    (transient : ∀ earlier < successful, ∀ state error,
      (function (attempt + earlier) state).1 ≠ .error (.permanent error))
    (succeeds : ∀ state, ∃ value, (function (attempt + successful) state).1 = .ok value) :
    ∃ value, (retryFunction function maxTimes attempt state).1 = .ok value := by
  induction maxTimes generalizing attempt state successful with
  | zero =>
      obtain rfl := Nat.le_zero.mp within
      exact succeeds state
  | succ maxTimes induction =>
      rw [retryFunction]
      split
      · rename_i error after failed
        cases successful with
        | zero =>
            obtain ⟨value, succeeded⟩ := succeeds state
            rw [Nat.add_zero, failed] at succeeded
            cases succeeded
        | succ successful =>
            apply @induction (attempt + 1) after successful (Nat.le_of_succ_le_succ within)
            · intro earlier before
              rw [Nat.succ_add_eq_add_succ]
              exact transient (earlier + 1) (Nat.succ_lt_succ before)
            · rw [Nat.succ_add_eq_add_succ]
              exact succeeds
      · rename_i final
        cases answer : (function attempt state).1 with
        | ok value => exact ⟨value, rfl⟩
        | error error =>
            exfalso
            cases error with
            | transient error => exact final error _ (Prod.ext answer rfl)
            | permanent error =>
                cases successful with
                | zero =>
                    obtain ⟨value, succeeded⟩ := succeeds state
                    rw [Nat.add_zero, answer] at succeeded
                    cases succeeded
                | succ successful =>
                    exact transient 0 (Nat.succ_pos _) state error answer

end

end AlignedLayer
