import AlignedLayer.Batcher.Control
import AlignedLayer.Batcher.Entries

/-!
# Flushes

A flush for a user that cannot pay is part of the work on a batch: until it
ends, the batch stays where the flush was asked for.
-/

namespace AlignedLayer

variable {environment : Environment} {config : Config} {system next : System}

/-- While a flush for an insufficient balance runs, the batch waits for it. -/
def FlushWaits (system : System) : Prop :=
  ∀ stage, system.flush = some (.insufficientBalance, stage) →
    ∃ batch address, system.shared.batch = some (batch, .insufficient address)

/-- A flush that runs after a step ran before it, or was started by it. -/
theorem step_flush {label : Label} {origin : FlushOrigin} {stage : FlushStage}
    (stepped : (batcher environment config).step system label = some next)
    (flushing : next.flush = some (origin, stage)) :
    ((∃ earlier, system.flush = some (origin, earlier)) ∧
        (label.isFlush = true → next.shared.batch = system.shared.batch)) ∨
      (label = .startFlush origin ∧ next.shared = system.shared ∧
        (origin = .insufficientBalance →
          ∃ batch address, system.shared.batch = some (batch, .insufficient address))) := by
  by_cases isFlush : label.isFlush = true
  · have step := step_of_isFlush isFlush stepped
    have control : next.control.flush = some (origin, stage) := flushing
    generalize next.shared = after at step ⊢
    generalize next.control = control' at step control
    cases step with
    | fetched before =>
        simp only [Option.some.injEq, Prod.mk.injEq] at control
        obtain ⟨rfl, -⟩ := control
        exact .inl ⟨⟨_, before⟩, fun _ => rfl⟩
    | cleared before =>
        simp only [Option.some.injEq, Prod.mk.injEq] at control
        obtain ⟨rfl, -⟩ := control
        exact .inl ⟨⟨_, before⟩, fun _ => rfl⟩
    | finished before => simp at control
    | inserted before => simp at control
  · by_cases starts : ∃ other, label = .startFlush other
    · obtain ⟨other, rfl⟩ := starts
      obtain ⟨-, rfl, -, started⟩ := startFlush_cases stepped
      simp only [Option.some.injEq, Prod.mk.injEq] at flushing
      obtain ⟨rfl, -⟩ := flushing
      exact .inr ⟨rfl, rfl, started⟩
    · have same := step_flush_same (fun other labelled => starts ⟨other, labelled⟩)
        (Bool.eq_false_iff.mpr isFlush) stepped
      rw [flushing] at same
      exact .inl ⟨⟨stage, same.symm⟩, fun other => absurd other isFlush⟩

theorem batch_of_insufficient {label : Label} {after : Shared} {batch : InFlight}
    {address : Address} (change : Change environment config system label after)
    (notFlush : label.isFlush = false)
    (current : system.shared.batch = some (batch, .insufficient address)) :
    after.batch = some (batch, .insufficient address) := by
  cases change with
  | evict running full found removed =>
      obtain ⟨userStates, cells, rfl⟩ := Shared.evict_eq_ok removed
      exact current
  | evictPanics running full found removed =>
      obtain ⟨userStates, cells, rfl⟩ := Shared.evict_eq_error removed
      exact current
  | extract idle => simp [idle] at current
  | advance stageCurrent unsent later => simp_all [Stage.isUnsent]
  | send labelled stageCurrent unsent answered => simp_all [Stage.isUnsent]
  | giveUpWaiting stageCurrent => simp_all
  | endCancel stageCurrent => simp_all
  | receipt stageCurrent included => simp_all
  | updateUser stageCurrent member free => simp_all
  | updateRestoredUser stageCurrent member free => simp_all
  | cleanupUser stageCurrent free => simp_all
  | close stageCurrent closed updated later => simp_all [Stage.isClosed]
  | endRestored stageCurrent => simp_all
  | respond stageCurrent => simp_all
  | restore stageCurrent ran => simp_all
  | flush => cases notFlush
  | flushAndReset labelled flushing => simp_all
  | insertNonpaying flushing configured => cases notFlush
  | _ => exact current

theorem flushWaits_step {label : Label} (waits : FlushWaits system)
    (stepped : (batcher environment config).step system label = some next) :
    FlushWaits next := by
  intro stage flushing
  rcases step_flush stepped flushing with ⟨⟨earlier, before⟩, flushKeeps⟩ |
    ⟨-, same, started⟩
  · obtain ⟨batch, address, current⟩ := waits earlier before
    refine ⟨batch, address, ?_⟩
    by_cases isFlush : label.isFlush = true
    · rw [flushKeeps isFlush, current]
    · exact batch_of_insufficient (step_change stepped) (Bool.eq_false_iff.mpr isFlush) current
  · rw [same]
    exact started rfl

end AlignedLayer
