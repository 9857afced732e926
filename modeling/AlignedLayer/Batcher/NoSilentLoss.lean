import AlignedLayer.Batcher.AtMostOnce

/-!
# No silent loss

In the runs in which errors are final, accepted keys are new, and every step
meets `TellsLosses`, each acceptance is queued, in flight, charged or
terminated with a message, and only one of these.  A restoration into a queue
that has filled up meanwhile breaks the last condition and drops a proof
without a message.
-/

namespace AlignedLayer

variable {environment : Environment} {config : Config} {system next : System} {label : Label}

/-- The condition on a step under which no proof is lost. -/
structure KeepsProofs (environment : Environment) (config : Config) (system : System)
    (label : Label) : Prop where
  final : ErrorsAreFinal system label
  unclaimed : AcceptsFree System.IsUnclaimed system label
  tells : TellsLosses environment config system label

instance (environment : Environment) (config : Config) (system : System) (label : Label) :
    Decidable (KeepsProofs environment config system label) :=
  decidable_of_iff (ErrorsAreFinal system label ∧ AcceptsFree System.IsUnclaimed system label ∧
      TellsLosses environment config system label)
    ⟨fun holds => ⟨holds.1, holds.2.1, holds.2.2⟩,
      fun holds => ⟨holds.final, holds.unclaimed, holds.tells⟩⟩

/-- Every acceptance is in one of the four places. -/
structure Accounted (system : System) : Prop where
  waits : FlushWaits system
  submitted : Submitted system.shared
  unique : (system.shared.waiting.map BatchQueueEntry.key).Nodup
  connected : ∀ entry ∈ system.shared.accepted, entry.messagingSink.isSome = true
  places : system.shared.accepted.Perm
    (system.shared.waiting ++ (system.shared.chain.charged ++ system.shared.terminated))

theorem accounted_step (accounted : Accounted system)
    (guarded : KeepsProofs environment config system label)
    (stepped : (batcher environment config).step system label = some next) :
    Accounted next := by
  have change := step_change stepped
  obtain ⟨added, settled, lost, dropped, flow⟩ :=
    change.flow accounted.waits accounted.submitted guarded.final
  have accepted := flow.accepted
  rw [flow.stored guarded.unclaimed, List.append_nil] at accepted
  have waitingConnected : ∀ entry ∈ system.shared.waiting,
      entry.messagingSink.isSome = true := by
    intro entry member
    apply accounted.connected
    rw [accounted.places.mem_iff]
    exact List.mem_append_left _ member
  have terminated := flow.told guarded.tells accounted.unique waitingConnected
  refine ⟨flushWaits_step accounted.waits stepped,
    change.submitted accounted.waits accounted.submitted guarded.final, ?_, ?_, ?_⟩
  · have unique : ((system.shared.waiting ++ []).map BatchQueueEntry.key).Nodup := by
      rw [List.append_nil]
      exact accounted.unique
    have kept := flow.transfer.keys_nodup BatchQueueEntry.key unique flow.keys_nodup_added (by
      rw [List.append_nil]
      exact flow.fresh System.IsUnclaimed guarded.unclaimed)
    rw [List.map_append] at kept
    exact kept.of_append_left
  · rw [accepted]
    intro entry member
    rcases List.mem_append.mp member with before | added
    · exact accounted.connected entry before
    · exact flow.connected entry added
  · rw [accepted, flow.charged, terminated]
    exact flow.transfer.accounts accounted.places

theorem accounted_initial {chain : Chain} (fresh : chain.Fresh)
    (disabledVerifiers lastUploadedBatchBlock : Nat) :
    Accounted (initialSystem config chain disabledVerifiers lastUploadedBatchBlock) := by
  have nothing := Shared.waiting_initial config chain
  obtain ⟨userStates, cells, nextRef, equation⟩ := Shared.initial_eq config chain
  refine ⟨?_, submitted_initial fresh, ?_, ?_, ?_⟩
  · intro stage flushing
    cases flushing
  · simp [initialSystem, nothing]
  · simp [initialSystem, equation, Shared.empty]
  · simp only [initialSystem, nothing]
    rw [equation]
    simp [Shared.empty, Shared.terminated, Chain.charged, fresh.included]

/-- One proof is evicted, one is charged, and one is flushed. -/
def Sample.threeEnds : List Label :=
  firstProof 0 1 0 1000000 ++ nextProof 1 1 1 900000 ++ firstProof 2 2 0 2000000 ++
    sendBatch ++ closeBatch 0 [2, 1] ++ nextProof 3 2 1 1000000 ++
    [.setDisabledVerifiers 1, .startFlush .disabledVerifiers, .clearQueue]

/-- The upload of a batch fails after its place in the queue was taken by a
proof with the same fee. -/
def Sample.filledUpMeanwhile : List Label :=
  firstProof 0 1 0 1000000 ++ [.extract layout 1 1] ++ firstProof 1 2 0 1000000 ++
    [.finalize, .failSubmission, .restore layout]

end AlignedLayer
