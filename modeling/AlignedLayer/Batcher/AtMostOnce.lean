import AlignedLayer.Batcher.Flow

/-!
# At most one submission of a proof

In the runs in which errors are final and no key is accepted while an earlier
acceptance of it is queued, in flight or charged, the chain charges at most
once for a key.  A transaction that is included after its batch was given up
breaks the first condition and is charged twice.
-/

namespace AlignedLayer

variable {environment : Environment} {config : Config} {system next : System} {label : Label}

/-- Neither queued, nor in flight, nor charged. -/
def System.IsNew (system : System) (key : Address × Nat) : Prop :=
  key ∉ (system.shared.waiting ++ system.shared.chain.charged).map BatchQueueEntry.key

instance (system : System) : DecidablePred system.IsNew :=
  fun _ => inferInstanceAs (Decidable (¬ _))

/-- The condition on a step under which no proof is submitted twice. -/
def SubmitsOnce (system : System) (label : Label) : Prop :=
  ErrorsAreFinal system label ∧ AcceptsFree System.IsNew system label

instance (system : System) (label : Label) : Decidable (SubmitsOnce system label) :=
  inferInstanceAs (Decidable (_ ∧ _))

structure ChargedOnce (system : System) : Prop where
  waits : FlushWaits system
  submitted : Submitted system.shared
  unique : ((system.shared.waiting ++ system.shared.chain.charged).map
    BatchQueueEntry.key).Nodup

theorem chargedOnce_step (once : ChargedOnce system) (guarded : SubmitsOnce system label)
    (stepped : (batcher environment config).step system label = some next) :
    ChargedOnce next := by
  have change := step_change stepped
  obtain ⟨added, settled, lost, dropped, flow⟩ :=
    change.flow once.waits once.submitted guarded.1
  refine ⟨flushWaits_step once.waits stepped,
    change.submitted once.waits once.submitted guarded.1, ?_⟩
  rw [flow.charged]
  exact flow.transfer.keys_nodup BatchQueueEntry.key once.unique flow.keys_nodup_added
    (flow.fresh System.IsNew guarded.2)

theorem chargedOnce_initial {chain : Chain} (fresh : chain.Fresh)
    (disabledVerifiers lastUploadedBatchBlock : Nat) :
    ChargedOnce (initialSystem config chain disabledVerifiers lastUploadedBatchBlock) := by
  refine ⟨?_, submitted_initial fresh, ?_⟩
  · intro stage flushing
    cases flushing
  · have nothing := Shared.waiting_initial config chain
    obtain ⟨userStates, cells, nextRef, equation⟩ := Shared.initial_eq config chain
    simp only [initialSystem, nothing]
    rw [equation]
    simp [Chain.charged, Shared.empty, fresh.included]

/-- A batch whose transaction was dropped is put back and sent again. -/
def Sample.retriedBatch : List Label :=
  firstProof 0 1 0 1000000 ++ sendBatch ++
    [.giveUpWaiting, .dropTransaction 0, .endCancel, .restore layout, .updateUser layout 1,
      .endUpdates] ++
    sendBatch ++ closeBatch 1 [1]

/-- The cancellation ends while the transaction is still pending, and both it
and the next one are included. -/
def Sample.lateTransaction : List Label :=
  firstProof 0 1 0 1000000 ++ sendBatch ++
    [.giveUpWaiting, .endCancel, .restore layout, .updateUser layout 1, .endUpdates] ++
    firstProof 1 2 0 1000000 ++ sendBatch ++ [.mine 0 1, .mine 1 1]

end AlignedLayer
