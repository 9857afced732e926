import AlignedLayer.Batcher.Queued

/-!
# Proofs of disabled systems

A handler checks the bitmap of disabled verifiers before it takes the lock of
the queue, and a new bitmap flushes the queue.  What comes after the flush is
a proof that was checked against the bitmap before, or a batch that was in
flight meanwhile.  A replacement is checked under the lock of the queue.
-/

namespace AlignedLayer

/-- The proving system of the entry is disabled in the bitmap. -/
def BatchQueueEntry.isDisabled (entry : BatchQueueEntry) (disabledVerifiers : Nat) : Bool :=
  ZkUtils.isVerifierDisabled disabledVerifiers
    entry.noncedVerificationData.verificationData.provingSystem

/-- The condition on a step under which the queue stays free of disabled
systems: unless its flush is still to come, the bitmap has not come to disable
the proof a handler queues, or a proof of the batch that is put back. -/
def QueuesEnabled (system : System) : Label → Prop
  | .enqueue task _ => system.When Phase.enqueuing (fun request _ =>
      system.flushRequested = false →
        ZkUtils.isVerifierDisabled system.disabledVerifiers
          request.noncedVerificationData.verificationData.provingSystem = false) task
  | .restore _ => system.shared.OfBatch fun batch =>
      system.flushRequested = false →
        ∀ entry ∈ batch.entries, entry.isDisabled system.disabledVerifiers = false
  | _ => True

instance (system : System) (label : Label) : Decidable (QueuesEnabled system label) := by
  apply @Label.casesOn (fun label => Decidable (QueuesEnabled system label)) label
  all_goals intros
  all_goals dsimp only [QueuesEnabled]
  all_goals infer_instance

/-- Once the flush for the bitmap is over, no queued proof is disabled. -/
structure Clean (system : System) : Prop where
  cleared : ∀ {origin nonce}, system.flush = some (origin, .cleared nonce) →
    system.shared.batchQueue.items = []
  enabled : system.flushRequested = false →
    ∀ entry ∈ system.shared.batchQueue.items, entry.isDisabled system.disabledVerifiers = false

variable {environment : Environment} {config : Config} {system next : System} {label : Label}
  {entry : BatchQueueEntry}

/-- A replacement that changes the queue was checked against the bitmap. -/
theorem replace_checked {task : TaskId} {verifier : VerifierCall → Bool} {request : Request}
    {ref : Ref} {balance : Nat}
    (running : system.handlers task = some (request, .replace ref balance))
    (stepped : system.replace environment config task verifier = some next) :
    next.shared.batchQueue = system.shared.batchQueue ∨
      system.proofRefusal config verifier request.noncedVerificationData.verificationData =
        none := by
  simp only [System.replace, running] at stepped
  split at stepped
  · cases stepped
  · split at stepped
    · cases stepped
      exact .inl rfl
    · split at stepped
      · cases stepped
        exact .inl rfl
      · split at stepped
        · cases stepped
          exact .inl rfl
        · split at stepped
          · cases stepped
            exact .inl rfl
          · rename_i accepted
            exact .inr accepted

theorem enabled_of_not_refused {verifier : VerifierCall → Bool} {data : VerificationData}
    (preVerification : config.preVerificationIsEnabled = true)
    (accepted : system.proofRefusal config verifier data = none) :
    ZkUtils.isVerifierDisabled system.disabledVerifiers data.provingSystem = false := by
  rw [System.proofRefusal, preVerification] at accepted
  by_contra disabled
  rw [Bool.not_eq_false] at disabled
  rw [disabled] at accepted
  cases accepted

/-- What a guarded step queues is enabled. -/
theorem Queues.enabled (preVerification : config.preVerificationIsEnabled = true)
    (queues : Queues environment system label entry) (guarded : QueuesEnabled system label)
    (stepped : (batcher environment config).step system label = some next)
    (member : entry ∈ next.shared.batchQueue.items) (flushed : system.flushRequested = false) :
    entry ∈ system.shared.batchQueue.items ∨ entry.isDisabled system.disabledVerifiers = false := by
  cases queues with
  | enqueue running => exact .inr (guarded.running running rfl flushed)
  | replace running stored =>
      rcases replace_checked running stepped with same | accepted
      · rw [same] at member
        exact .inl member
      · exact .inr (enabled_of_not_refused preVerification accepted)
  | restore current batchMember => exact .inr (guarded.current current flushed _ batchMember)

/-- The fields the invariant speaks of, after a step that is no flush. -/
theorem clean_of_same (preVerification : config.preVerificationIsEnabled = true)
    (clean : Clean system) (guarded : QueuesEnabled system label)
    (stepped : (batcher environment config).step system label = some next)
    (flush : ∀ {origin nonce}, next.flush = some (origin, .cleared nonce) →
      system.flush = some (origin, .cleared nonce))
    (requested : next.flushRequested = false → system.flushRequested = false ∧
      next.disabledVerifiers = system.disabledVerifiers) : Clean next := by
  constructor
  · intro origin nonce isCleared
    have before := clean.cleared (flush isCleared)
    rw [List.eq_nil_iff_forall_not_mem]
    intro entry member
    rcases (step_change stepped).queued member with queued | queues
    · rw [before] at queued
      cases queued
    · have idle := queues.idle stepped
      rw [flush isCleared] at idle
      cases idle
  · intro flushed entry member
    obtain ⟨wasOver, same⟩ := requested flushed
    rw [same]
    rcases (step_change stepped).queued member with queued | queues
    · exact clean.enabled wasOver entry queued
    · rcases queues.enabled preVerification guarded stepped member wasOver with queued | enabled
      · exact clean.enabled wasOver entry queued
      · exact enabled

/-- A flush leaves the queue empty. -/
theorem clean_of_flush (clean : Clean system) (isFlush : label.isFlush = true)
    (stepped : (batcher environment config).step system label = some next) : Clean next := by
  have step := step_of_isFlush isFlush stepped
  have cleared : ∀ {shared : Shared} {control : Control}, next.shared = shared →
      next.control = control → shared.batchQueue.items = [] → Clean next := by
    intro shared control sameShared sameControl empty
    constructor
    · intro origin nonce isCleared
      rw [sameShared, empty]
    · intro flushed entry member
      rw [sameShared, empty] at member
      cases member
  generalize sameShared : next.shared = shared at step
  generalize sameControl : next.control = control at step
  cases step with
  | fetched flushing =>
      constructor
      · intro origin nonce isCleared
        have control := (congrArg Control.flush sameControl).symm.trans isCleared
        cases control
      · rw [sameShared]
        have requested := congrArg Control.flushRequested sameControl
        have bitmap := congrArg Control.disabledVerifiers sameControl
        intro flushed
        rw [show next.disabledVerifiers = system.disabledVerifiers from bitmap]
        exact clean.enabled (requested.symm.trans flushed)
  | cleared flushing => exact cleared sameShared sameControl rfl
  | finished flushing =>
      refine cleared sameShared sameControl ?_
      rw [Shared.afterFlush_batchQueue]
      rfl
  | inserted flushing =>
      refine cleared sameShared sameControl ?_
      rw [Shared.afterFlush_batchQueue]
      exact clean.cleared flushing

theorem clean_step (preVerification : config.preVerificationIsEnabled = true)
    (clean : Clean system) (guarded : QueuesEnabled system label)
    (stepped : (batcher environment config).step system label = some next) : Clean next := by
  cases isControl : label.isControl with
  | false =>
      have same := step_control isControl stepped
      have flush := congrArg Control.flush same
      have requested := congrArg Control.flushRequested same
      have bitmap := congrArg Control.disabledVerifiers same
      refine clean_of_same preVerification clean guarded stepped ?_ ?_
      · intro origin nonce isCleared
        exact flush.symm.trans isCleared
      · intro flushed
        exact ⟨requested.symm.trans flushed, bitmap⟩
  | true =>
      cases label with
      | fetchNonpayingNonce | clearQueue | insertNonpaying => exact clean_of_flush clean rfl stepped
      | startFlush origin =>
          obtain ⟨-, rfl, -, -⟩ := startFlush_cases stepped
          constructor
          · intro other nonce isCleared
            cases isCleared
          · exact clean.enabled
      | setDisabledVerifiers value =>
          have flush : next.flush = system.flush := step_flush_same (by simp) rfl stepped
          refine clean_of_same preVerification clean guarded stepped ?_ ?_
          · intro origin nonce isCleared
            exact flush.symm.trans isCleared
          · intro flushed
            simp only [batcher, System.setDisabledVerifiers] at stepped
            split at stepped
            · cases stepped
            · split at stepped
              · cases stepped
                exact ⟨flushed, rfl⟩
              · cases stepped
                cases flushed
      | pollProofs | pollBalance | stopPolling | removeUserProofs =>
          have flush : next.flush = system.flush := step_flush_same (by simp) rfl stepped
          refine clean_of_same preVerification clean guarded stepped ?_ ?_
          · intro origin nonce isCleared
            exact flush.symm.trans isCleared
          · intro flushed
            have same := polling_control rfl stepped
            exact ⟨same.1.symm.trans flushed, same.2⟩
      | _ => cases isControl

/-- The queue is empty at the start. -/
theorem clean_initial (config : Config) (chain : Chain)
    (disabledVerifiers lastUploadedBatchBlock : Nat) :
    Clean (initialSystem config chain disabledVerifiers lastUploadedBatchBlock) := by
  obtain ⟨userStates, cells, nextRef, initial⟩ := Shared.initial_eq config chain
  have empty : (Shared.initial config chain).batchQueue.items = [] := by
    rw [initial]
    rfl
  constructor
  · intro origin nonce isCleared
    cases isCleared
  · intro flushed entry member
    rw [initialSystem, empty] at member
    cases member

/-- A batch that is extracted once the flush for the current bitmap is over
has no proof of a system that the bitmap disables. -/
theorem disabled_never_extracted (environment : Environment) (config : Config)
    (preVerification : config.preVerificationIsEnabled = true) (chain : Chain)
    (disabledVerifiers lastUploadedBatchBlock : Nat) (labels : List Label) (reached : System)
    (meets : (batcher environment config).Meets QueuesEnabled
      (initialSystem config chain disabledVerifiers lastUploadedBatchBlock) labels)
    (ran : (batcher environment config).run
      (initialSystem config chain disabledVerifiers lastUploadedBatchBlock) labels =
        some reached)
    (flushed : reached.flushRequested = false) (layout : QueueLayout)
    (gasPrice blockNumber : Nat) (next : System) (batch : InFlight)
    (stepped : (batcher environment config).step reached (.extract layout gasPrice blockNumber) =
      some next)
    (extracted : next.shared.batch = some (batch, .finalizing)) :
    ∀ entry ∈ batch.entries,
      ZkUtils.isVerifierDisabled reached.disabledVerifiers
        entry.noncedVerificationData.verificationData.provingSystem = false := by
  have clean : Clean reached := by
    refine Machine.run_preserves ?_ (clean_initial _ _ _ _) meets ran
    intro state next label invariant guarded stepped
    exact clean_step preVerification invariant guarded stepped
  intro entry member
  rcases (step_change stepped).batch_cases extracted with ⟨earlier, current⟩ |
    ⟨price, root, ⟨taken⟩, -⟩
  · simp [batcher, System.extract, current] at stepped
  · apply clean.enabled flushed entry
    exact (Shared.items_of_extracted taken).mem_iff.mpr (List.mem_append_left _ member)

def Sample.verifyingConfig : Config :=
  { Sample.config 10 with preVerificationIsEnabled := true }

/-- A bitmap that disables another system is stored, the queue is flushed, and
the proof is submitted again. -/
def Sample.afterBitmap : List Label :=
  firstProof 0 1 0 1000000 ++
    [.setDisabledVerifiers 1, .startFlush .disabledVerifiers, .clearQueue] ++
    firstProof 1 1 0 1000000

theorem disabled_never_extracted_afterBitmap :
    ∃ reached next batch, (batcher Sample.environment Sample.verifyingConfig).run
        (Sample.system 10 100000000) Sample.afterBitmap = some reached ∧
      (batcher Sample.environment Sample.verifyingConfig).step reached
        (.extract Sample.layout 1 1) = some next ∧
      next.shared.batch = some (batch, .finalizing) ∧
      ∀ entry ∈ batch.entries,
        ZkUtils.isVerifierDisabled reached.disabledVerifiers
          entry.noncedVerificationData.verificationData.provingSystem = false := by
  have found : ((batcher Sample.environment Sample.verifyingConfig).run
      (Sample.system 10 100000000) Sample.afterBitmap).any (fun reached =>
        decide (reached.flushRequested = false) &&
        ((batcher Sample.environment Sample.verifyingConfig).step reached
          (.extract Sample.layout 1 1)).any fun next =>
            next.shared.batch.any fun work => decide (work.2 = .finalizing)) = true := by
    decide +kernel
  obtain ⟨reached, ran, holds⟩ := (Option.any_eq_true _ _).mp found
  rw [Bool.and_eq_true, decide_eq_true_eq, Option.any_eq_true] at holds
  obtain ⟨flushed, next, stepped, work⟩ := holds
  obtain ⟨⟨batch, stage⟩, current, isFinalizing⟩ := (Option.any_eq_true _ _).mp work
  cases of_decide_eq_true isFinalizing
  refine ⟨reached, next, batch, ran, stepped, current, ?_⟩
  exact disabled_never_extracted _ _ rfl _ _ _ _ _ (by decide +kernel) ran flushed _ _ _ _ _
    stepped current

/-- The bitmap that disables SP1 is stored between the check of a proof and
its handler's turn for the queue. -/
def Sample.checkedBefore : List Label :=
  createUser 0 1 0 1000000 ++
    [.readBalance 0 true, .verifyProof 0 fun _ => true, .setDisabledVerifiers 8,
      .startFlush .disabledVerifiers, .clearQueue, .enqueue 0 layout, .extract layout 1 1]

theorem disabled_proof_extracted :
    ∃ finish batch, (batcher Sample.environment Sample.verifyingConfig).run
        (Sample.system 10 100000000) Sample.checkedBefore = some finish ∧
      finish.flushRequested = false ∧ finish.shared.batch = some (batch, .finalizing) ∧
      ∃ entry ∈ batch.entries,
        ZkUtils.isVerifierDisabled finish.disabledVerifiers
          entry.noncedVerificationData.verificationData.provingSystem = true := by
  have found : ((batcher Sample.environment Sample.verifyingConfig).run
      (Sample.system 10 100000000) Sample.checkedBefore).any (fun finish =>
        decide (finish.flushRequested = false) && finish.shared.batch.any fun work =>
          decide (work.2 = .finalizing ∧ ∃ entry ∈ work.1.entries,
            ZkUtils.isVerifierDisabled finish.disabledVerifiers
              entry.noncedVerificationData.verificationData.provingSystem = true)) = true := by
    decide +kernel
  obtain ⟨finish, ran, holds⟩ := (Option.any_eq_true _ _).mp found
  rw [Bool.and_eq_true, decide_eq_true_eq, Option.any_eq_true] at holds
  obtain ⟨flushed, ⟨batch, stage⟩, current, facts⟩ := holds
  obtain ⟨rfl, entries⟩ := of_decide_eq_true facts
  exact ⟨finish, batch, ran, flushed, current, entries⟩

end AlignedLayer
