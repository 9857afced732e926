import AlignedLayer.Batcher.BlockTasks

/-!
# What a step of a block task does

`Step` lists the steps of the machine with their guards.  The invariants are
proved by cases on it, and no later proof unfolds the machine.
-/

namespace AlignedLayer.BlockTasks

open State

variable (environment : Environment) (config : Config)

inductive Step (state : State) : Label → State → Prop where
  | spawned {task : TaskId} {blockNumber : Nat} (free : state.tasks task = none) :
      Step state (.spawn task blockNumber) (state.goto task blockNumber .waitingForRpc)
  | rpcFailed {task : TaskId} {blockNumber : Nat}
      (found : state.tasks task = some ⟨blockNumber, .waitingForRpc⟩) :
      Step state (.answer task none) (state.goto task blockNumber (.exited .rpcFailed))
  | answered {task : TaskId} {blockNumber gasPrice : Nat}
      (found : state.tasks task = some ⟨blockNumber, .waitingForRpc⟩) :
      Step state (.answer task (some gasPrice))
        (state.goto task blockNumber (.waitingForBatchState gasPrice))
  | entered {task : TaskId} {blockNumber gasPrice : Nat}
      (found : state.tasks task = some ⟨blockNumber, .waitingForBatchState gasPrice⟩)
      (free : state.batchStateLock = none) :
      Step state (.lockBatchState task)
        { state.goto task blockNumber (.checking gasPrice) with batchStateLock := some task }
  | emptyQueue {task : TaskId} {blockNumber gasPrice : Nat}
      (found : state.tasks task = some ⟨blockNumber, .checking gasPrice⟩)
      (empty : state.batchQueue.len < 1) :
      Step state (.checkInterval task) (state.leaveCheck task blockNumber .emptyQueue)
  | underflowed {task : TaskId} {blockNumber gasPrice : Nat} {exit : Exit}
      (found : state.tasks task = some ⟨blockNumber, .checking gasPrice⟩)
      (nonempty : ¬ state.batchQueue.len < 1)
      (older : blockNumber < state.lastUploadedBatchBlock) :
      Step state (.checkInterval task)
        ((state.leaveCheck task blockNumber exit).record (.underflow task))
  | tooEarly {task : TaskId} {blockNumber gasPrice : Nat}
      (found : state.tasks task = some ⟨blockNumber, .checking gasPrice⟩)
      (notOlder : ¬ blockNumber < state.lastUploadedBatchBlock) :
      Step state (.checkInterval task) (state.leaveCheck task blockNumber .tooEarly)
  | passed {task : TaskId} {blockNumber gasPrice : Nat}
      (found : state.tasks task = some ⟨blockNumber, .checking gasPrice⟩)
      (free : state.lastUploadedLock = none)
      (late : state.lastUploadedBatchBlock + config.minBlockInterval ≤ blockNumber) :
      Step state (.checkInterval task)
        { state.goto task blockNumber (.waitingForPosting gasPrice) with
          lastUploadedLock := some task }
  | beingPosted {task : TaskId} {blockNumber gasPrice : Nat} {layout : QueueLayout}
      (found : state.tasks task = some ⟨blockNumber, .waitingForPosting gasPrice⟩) :
      Step state (.lockPosting task layout)
        ({ state with batchStateLock := none, lastUploadedLock := none }.goto task blockNumber
          (.exited .beingPosted))
  | costTooHigh {task : TaskId} {blockNumber gasPrice : Nat} {layout : QueueLayout}
      {rest : BatchQueue}
      (found : state.tasks task = some ⟨blockNumber, .waitingForPosting gasPrice⟩) :
      Step state (.lockPosting task layout)
        ({ state with batchStateLock := none, lastUploadedLock := none, batchQueue := rest }.goto
          task blockNumber (.exited .batchCostTooHigh))
  | extracted {task : TaskId} {blockNumber gasPrice : Nat} {layout : QueueLayout}
      {batch : List BatchQueueEntry} {rest : BatchQueue}
      (found : state.tasks task = some ⟨blockNumber, .waitingForPosting gasPrice⟩)
      (free : state.postingLock = none) (notPosting : state.postingBatch = false)
      (nonempty : batch ≠ []) :
      Step state (.lockPosting task layout)
        (({ state with
            batchStateLock := none, lastUploadedLock := none, batchQueue := rest,
            postingBatch := true }.goto task blockNumber (.finalizing batch)).record
          (.extracted task blockNumber batch))
  | updated {task : TaskId} {blockNumber : Nat} {batch : List BatchQueueEntry}
      (found : state.tasks task = some ⟨blockNumber, .finalizing batch⟩)
      (free : state.lastUploadedLock = none) :
      Step state (.updateLastUploaded task)
        { state.goto task blockNumber (.submitting batch) with
          lastUploadedBatchBlock := blockNumber }
  | notBuilt {task : TaskId} {blockNumber : Nat} {batch : List BatchQueueEntry}
      (found : state.tasks task = some ⟨blockNumber, .finalizing batch⟩)
      (refused : ¬ (environment.cborSerializes (batch.map fun entry =>
          entry.noncedVerificationData.verificationData) = true ∧
        (environment.merkleTree.build
          (batch.map BatchQueueEntry.verificationDataCommitment)).isSome = true)) :
      Step state (.updateLastUploaded task)
        ((state.goto task blockNumber (.finalized batch .failed)).record
          (.finalized task .failed))
  | ended {task : TaskId} {blockNumber : Nat} {batch : List BatchQueueEntry}
      {result : Finalization}
      (found : state.tasks task = some ⟨blockNumber, .submitting batch⟩) :
      Step state (.endFinalization task result)
        ((state.goto task blockNumber (.finalized batch result)).record
          (.finalized task result))
  | cleared {task : TaskId} {blockNumber : Nat} {batch : List BatchQueueEntry}
      {result : Finalization} {exit : Exit}
      (found : state.tasks task = some ⟨blockNumber, .finalized batch result⟩)
      (settled : result ≠ .failed) :
      Step state (.clearPosting task)
        ({ state with postingBatch := false }.goto task blockNumber (.exited exit))
  | clearedFailed {task : TaskId} {blockNumber : Nat} {batch : List BatchQueueEntry}
      (found : state.tasks task = some ⟨blockNumber, .finalized batch .failed⟩)
      (free : state.postingLock = none) :
      Step state (.clearPosting task)
        { { state with postingBatch := false }.goto task blockNumber (.restoring batch) with
          postingLock := some task }
  | restored {task : TaskId} {blockNumber : Nat} {batch : List BatchQueueEntry}
      {batchQueue : BatchQueue}
      (found : state.tasks task = some ⟨blockNumber, .restoring batch⟩) :
      Step state (.restore task batchQueue)
        (({ state with batchQueue := batchQueue }.goto task blockNumber
          .updatingUsers).record (.restored task))
  | restoreEnded {task : TaskId} {blockNumber : Nat}
      (found : state.tasks task = some ⟨blockNumber, .updatingUsers⟩) :
      Step state (.endRestore task)
        { state.goto task blockNumber (.exited .restored) with postingLock := none }
  | queueChanged {batchQueue : BatchQueue} :
      Step state (.changeQueue batchQueue) { state with batchQueue := batchQueue }

variable {environment config}

theorem checkInterval_cases {state next : State} {task : TaskId}
    (stepped : state.checkInterval config.minBlockInterval environment.overflowChecks task =
      some next) : Step environment config state (.checkInterval task) next := by
  rw [checkInterval] at stepped
  split at stepped
  · rename_i blockNumber gasPrice found
    split at stepped
    · cases stepped
    · rename_i free
      split at stepped
      · rename_i empty
        cases stepped
        exact .emptyQueue found empty
      · rename_i nonempty
        split at stepped
        · split at stepped
          · rename_i older
            cases stepped
            exact .underflowed found nonempty older
          · rename_i notOlder
            cases stepped
            exact .tooEarly found notOlder
        · rename_i late
          cases stepped
          exact .passed found (not_not.mp free) (Nat.not_lt.mp late)
  · cases stepped

theorem lockPosting_cases {state next : State} {task : TaskId} {layout : QueueLayout}
    (stepped : state.lockPosting config task layout = some next) :
    Step environment config state (.lockPosting task layout) next := by
  rw [lockPosting] at stepped
  split at stepped
  · rename_i blockNumber gasPrice found
    split at stepped
    · cases stepped
    · rename_i free
      dsimp only at stepped
      split at stepped
      · cases stepped
        exact .beingPosted found
      · rename_i notPosting
        split at stepped
        · cases stepped
          exact .costTooHigh found
        · rename_i batch rest extraction
          cases stepped
          obtain ⟨took⟩ := extracted_of_ok extraction
          exact .extracted found (not_not.mp free) (Bool.not_eq_true _ ▸ notPosting) took.ne_nil
  · cases stepped

theorem step_cases {state next : State} {label : Label}
    (stepped : (machine environment config).step state label = some next) :
    Step environment config state label next := by
  cases label with
  | spawn task blockNumber =>
      simp only [machine, spawn] at stepped
      split at stepped
      · rename_i free
        cases stepped
        exact .spawned free
      · cases stepped
  | answer task gasPrice =>
      simp only [machine, answer] at stepped
      split at stepped
      · rename_i blockNumber found
        split at stepped
        · cases stepped
          exact .rpcFailed found
        · cases stepped
          exact .answered found
      · cases stepped
  | lockBatchState task =>
      simp only [machine, lockBatchState] at stepped
      split at stepped
      · rename_i blockNumber gasPrice found
        split at stepped
        · rename_i free
          cases stepped
          exact .entered found free
        · cases stepped
      · cases stepped
  | checkInterval task => exact checkInterval_cases stepped
  | lockPosting task layout => exact lockPosting_cases stepped
  | updateLastUploaded task =>
      simp only [machine, updateLastUploaded] at stepped
      split at stepped
      · rename_i blockNumber batch found
        split at stepped
        · split at stepped
          · rename_i free
            cases stepped
            exact .updated found free
          · cases stepped
        · rename_i refused
          cases stepped
          exact .notBuilt found (by simpa only [Bool.and_eq_true] using refused)
      · cases stepped
  | endFinalization task result =>
      simp only [machine, endFinalization] at stepped
      split at stepped
      · rename_i blockNumber batch found
        cases stepped
        exact .ended found
      · cases stepped
  | clearPosting task =>
      simp only [machine, clearPosting] at stepped
      split at stepped
      · rename_i blockNumber batch result found
        split at stepped
        · cases stepped
        · rename_i free
          cases result with
          | succeeded =>
              cases stepped
              exact .cleared found (by decide)
          | flushed =>
              cases stepped
              exact .cleared found (by decide)
          | failed =>
              cases stepped
              exact .clearedFailed found (not_not.mp free)
      · cases stepped
  | restore task batchQueue =>
      simp only [machine, restore] at stepped
      split at stepped
      · rename_i blockNumber batch found
        split at stepped
        · cases stepped
          exact .restored found
        · cases stepped
      · cases stepped
  | endRestore task =>
      simp only [machine, endRestore] at stepped
      split at stepped
      · rename_i blockNumber found
        cases stepped
        exact .restoreEnded found
      · cases stepped
  | changeQueue batchQueue =>
      simp only [machine, changeQueue] at stepped
      split at stepped
      · cases stepped
        exact .queueChanged
      · cases stepped

end AlignedLayer.BlockTasks
