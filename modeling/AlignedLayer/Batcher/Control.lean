import AlignedLayer.Batcher.Steps

/-!
# Flushes and polling

The fields of the machine beside the shared data and the handlers: the bitmap
of disabled verifiers, the flush it may ask for, and the polling for unlocked
balances.  Only the steps listed here change them.
-/

namespace AlignedLayer

structure Control where
  flush : Option (FlushOrigin × FlushStage)
  flushRequested : Bool
  disabledVerifiers : Nat
  polling : Polling

def System.control (system : System) : Control :=
  { flush := system.flush
    flushRequested := system.flushRequested
    disabledVerifiers := system.disabledVerifiers
    polling := system.polling }

def Label.isControl : Label → Bool
  | .setDisabledVerifiers _ | .startFlush _ | .fetchNonpayingNonce _ | .clearQueue
  | .insertNonpaying | .pollProofs _ | .pollBalance _ | .stopPolling | .removeUserProofs => true
  | _ => false

variable {environment : Environment} {config : Config} {system next : System}

private theorem afterSend_control {answer : SendAnswer} {batch : InFlight} {later : Stage}
    (stepped : system.afterSend environment config batch later answer = some next) :
    next.control = system.control := by
  unfold System.afterSend at stepped
  repeat' split at stepped
  all_goals first | (cases stepped; rfl) | cases stepped

theorem step_control {label : Label} (other : label.isControl = false)
    (stepped : (batcher environment config).step system label = some next) :
    next.control = system.control := by
  cases label with
  | setDisabledVerifiers | startFlush | fetchNonpayingNonce | clearQueue | insertNonpaying
  | pollProofs | pollBalance | stopPolling | removeUserProofs => cases other
  | receive | checkLocked | checkUser | fetchNonce | insertUser | getUser | lockUser
  | readBalance | verifyProof | enqueue | replace | timeout =>
      simp only [batcher, System.receive, System.checkLocked, System.checkUser,
        System.fetchNonce, System.insertUser, System.getUser, System.lockUser,
        System.readBalance, System.verifyProof, System.enqueue, System.replace,
        System.timeout] at stepped
      repeat' split at stepped
      all_goals first | (cases stepped; rfl) | cases stepped
  | newBlock | dropTransaction =>
      cases stepped
      rfl
  | extract | finalize | failSubmission | simulate | receipt | giveUpWaiting | endCancel
  | updateUser | cleanupUser | skipCleanup | endUpdates | respond =>
      simp only [batcher, System.extract, System.finalize, System.failSubmission,
        System.simulate, System.receipt, System.giveUpWaiting, System.endCancel,
        System.updateUser, System.cleanupUser, System.skipCleanup, System.endUpdates,
        System.respond] at stepped
      repeat' split at stepped
      all_goals first | (cases stepped; rfl) | cases stepped
  | send | sendFallback =>
      simp only [batcher, System.send, System.sendFallback] at stepped
      split at stepped
      · exact afterSend_control stepped
      · cases stepped
  | restore layout =>
      simp only [batcher, System.restore] at stepped
      split at stepped
      · split at stepped
        · cases stepped
        · obtain ⟨restored, -, rfl⟩ := Option.map_eq_some_iff.mp stepped
          rfl
      · cases stepped
  | mine | userCall =>
      obtain ⟨chain, -, rfl⟩ := Option.map_eq_some_iff.mp stepped
      rfl

/-! ## The steps of a flush -/

/-- The control fields once a flush is over. -/
def Control.finishFlush (origin : FlushOrigin) (control : Control) : Control :=
  match origin with
  | .disabledVerifiers => { control with flush := none, flushRequested := false }
  | .insufficientBalance => { control with flush := none }

@[simp] theorem System.finishFlush_control (origin : FlushOrigin) (system : System) :
    (system.finishFlush origin).control = system.control.finishFlush origin := by
  cases origin with
  | disabledVerifiers => rfl
  | insufficientBalance =>
      rw [System.finishFlush]
      cases system.shared.batch with
      | none => rfl
      | some batch => rfl

@[simp] theorem Control.finishFlush_flush (origin : FlushOrigin) (control : Control) :
    (control.finishFlush origin).flush = none := by
  cases origin <;> rfl

/-- A flush either goes on, or is over with the queue empty or as empty as it
has been since it was cleared. -/
inductive FlushStep (system : System) : Shared → Control → Prop where
  | fetched {origin : FlushOrigin} {nonce : Nat}
      (flushing : system.flush = some (origin, .started)) :
      FlushStep system system.shared
        { system.control with flush := some (origin, .fetched nonce) }
  | cleared {origin : FlushOrigin} {nonce : Nat}
      (flushing : system.flush = some (origin, .fetched nonce)) :
      FlushStep system system.shared.flush
        { system.control with flush := some (origin, .cleared nonce) }
  | finished {origin : FlushOrigin} {stage : FlushStage}
      (flushing : system.flush = some (origin, stage)) :
      FlushStep system (system.shared.flush.afterFlush origin)
        (system.control.finishFlush origin)
  | inserted {origin : FlushOrigin} {nonce : Nat} {address : Address}
      (flushing : system.flush = some (origin, .cleared nonce)) :
      FlushStep system ((system.shared.createUser address nonce).afterFlush origin)
        (system.control.finishFlush origin)

theorem step_of_isFlush {label : Label} (isFlush : label.isFlush = true)
    (stepped : (batcher environment config).step system label = some next) :
    FlushStep system next.shared next.control := by
  cases label with
  | fetchNonpayingNonce answered =>
      simp only [batcher, System.fetchNonpayingNonce] at stepped
      split at stepped
      · rename_i origin address flushing configured
        split at stepped
        · cases stepped
          exact .fetched flushing
        · cases stepped
          rw [System.finishFlush_shared, System.finishFlush_control]
          exact .finished flushing
      · cases stepped
  | clearQueue =>
      simp only [batcher, System.clearQueue] at stepped
      split at stepped
      · rename_i origin flushing configured
        cases stepped
        rw [System.finishFlush_shared, System.finishFlush_control]
        exact .finished flushing
      · rename_i origin nonce address flushing configured
        cases stepped
        exact .cleared flushing
      · cases stepped
  | insertNonpaying =>
      simp only [batcher, System.insertNonpaying] at stepped
      split at stepped
      · rename_i origin nonce address flushing configured
        cases stepped
        rw [System.finishFlush_shared, System.finishFlush_control]
        exact .inserted flushing
      · cases stepped
  | _ => cases isFlush

/-! ## The steps around a flush -/

theorem startFlush_cases {origin : FlushOrigin} (stepped : system.startFlush origin = some next) :
    system.flush = none ∧ next = { system with flush := some (origin, .started) } ∧
      (origin = .disabledVerifiers → system.flushRequested = true) ∧
      (origin = .insufficientBalance →
        ∃ batch address, system.shared.batch = some (batch, .insufficient address)) := by
  unfold System.startFlush at stepped
  split at stepped
  · cases stepped
  · rename_i idle
    have none := Option.not_isSome_iff_eq_none.mp idle
    split at stepped
    · split at stepped
      · rename_i requested
        cases stepped
        exact ⟨none, rfl, fun _ => requested, fun other => by cases other⟩
      · cases stepped
    · split at stepped
      · rename_i batch address current
        cases stepped
        exact ⟨none, rfl, fun other => (by cases other), fun _ => ⟨batch, address, current⟩⟩
      · cases stepped

/-- The bitmap and the polling do not touch a flush. -/
theorem step_flush_same {label : Label} (notStart : ∀ origin, label ≠ .startFlush origin)
    (notFlush : label.isFlush = false)
    (stepped : (batcher environment config).step system label = some next) :
    next.flush = system.flush := by
  cases isControl : label.isControl with
  | false => exact congrArg Control.flush (step_control isControl stepped)
  | true =>
      cases label with
      | setDisabledVerifiers | pollProofs | pollBalance | stopPolling | removeUserProofs =>
          simp only [batcher, System.setDisabledVerifiers, System.pollProofs, System.pollBalance,
            System.stopPolling, System.removeUserProofs] at stepped
          repeat' split at stepped
          all_goals first | (cases stepped; rfl) | cases stepped
      | startFlush origin => exact absurd rfl (notStart origin)
      | fetchNonpayingNonce | clearQueue | insertNonpaying => cases notFlush
      | _ => cases isControl

/-- The steps of the polling for unlocked balances. -/
def Label.isPolling : Label → Bool
  | .pollProofs _ | .pollBalance _ | .stopPolling | .removeUserProofs => true
  | _ => false

@[simp] theorem Control.finishFlush_polling (origin : FlushOrigin) (control : Control) :
    (control.finishFlush origin).polling = control.polling := by
  cases origin <;> rfl

/-- The polling moves by its own steps only. -/
theorem step_polling_same {label : Label} (notPolling : label.isPolling = false)
    (stepped : (batcher environment config).step system label = some next) :
    next.polling = system.polling := by
  cases isControl : label.isControl with
  | false => exact congrArg Control.polling (step_control isControl stepped)
  | true =>
      cases label with
      | setDisabledVerifiers value =>
          simp only [batcher, System.setDisabledVerifiers] at stepped
          repeat' split at stepped
          all_goals first | (cases stepped; rfl) | cases stepped
      | startFlush origin =>
          obtain ⟨-, rfl, -, -⟩ := startFlush_cases stepped
          rfl
      | fetchNonpayingNonce | clearQueue | insertNonpaying =>
          have step := step_of_isFlush rfl stepped
          suffices next.control.polling = system.control.polling from this
          generalize next.control = control, next.shared = shared at step ⊢
          cases step with
          | fetched | cleared => rfl
          | finished | inserted => exact Control.finishFlush_polling _ _
      | pollProofs | pollBalance | stopPolling | removeUserProofs => cases notPolling
      | _ => cases isControl

theorem polling_control {label : Label} (isPolling : label.isPolling = true)
    (stepped : (batcher environment config).step system label = some next) :
    next.flushRequested = system.flushRequested ∧
      next.disabledVerifiers = system.disabledVerifiers := by
  cases label with
  | pollProofs | pollBalance | stopPolling | removeUserProofs =>
      simp only [batcher, System.pollProofs, System.pollBalance, System.stopPolling,
        System.removeUserProofs] at stepped
      repeat' split at stepped
      all_goals first | (cases stepped; exact ⟨rfl, rfl⟩) | cases stepped
  | _ => cases isPolling

end AlignedLayer
