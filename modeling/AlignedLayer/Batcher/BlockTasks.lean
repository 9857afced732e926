import AlignedLayer.Batcher.Config
import AlignedLayer.Batcher.Extraction
import AlignedLayer.Library.Holder
import AlignedLayer.Library.Machine
import AlignedLayer.Sdk.BatchInclusion

/-!
# The tasks of new blocks

Every block spawns a task that runs `handle_new_block`, and any number of
them run at the same time.  This machine has the locks, the counter and the
flag they share.  A task takes the locks of `extract_batch_if_ready` one after
the other, so that others may come in between; what other tasks do to the
queue is arbitrary, as long as the lock of the queue is free.
-/

namespace AlignedLayer

namespace BlockTasks

abbrev TaskId := Nat

/-- What `finalize_batch` returns; `flushed` is `StateCorruptedAndFlushed`. -/
inductive Finalization where
  | succeeded
  | flushed
  | failed
  deriving DecidableEq

/-- How `handle_new_block` ends. -/
inductive Exit where
  | rpcFailed
  | emptyQueue
  | tooEarly
  /-- The subtraction in the log message overflowed, in a build that checks. -/
  | panicked
  | beingPosted
  | batchCostTooHigh
  | succeeded
  | flushed
  | restored
  deriving DecidableEq

inductive Phase where
  | waitingForRpc
  | waitingForBatchState (gasPrice : Nat)
  | checking (gasPrice : Nat)
  | waitingForPosting (gasPrice : Nat)
  /-- Before and after `last_uploaded_batch_block` is written. -/
  | finalizing (batch : List BatchQueueEntry)
  | submitting (batch : List BatchQueueEntry)
  | finalized (batch : List BatchQueueEntry) (result : Finalization)
  | restoring (batch : List BatchQueueEntry)
  | updatingUsers
  | exited (exit : Exit)
  deriving DecidableEq

structure BlockTask where
  blockNumber : Nat
  phase : Phase
  deriving DecidableEq

namespace BlockTask

/-- The task holds the lock of `batch_state`. -/
def holdsBatchState (task : BlockTask) : Bool :=
  match task.phase with
  | .checking _ | .waitingForPosting _ => true
  | _ => false

/-- The task holds the lock of `last_uploaded_batch_block`. -/
def holdsLastUploaded (task : BlockTask) : Bool :=
  match task.phase with
  | .waitingForPosting _ => true
  | _ => false

/-- The task has set `posting_batch`, and has not cleared it yet. -/
def posts (task : BlockTask) : Bool :=
  match task.phase with
  | .finalizing _ | .submitting _ | .finalized _ _ => true
  | _ => false

/-- The task holds the lock of `posting_batch` until it has put its batch
back. -/
def restores (task : BlockTask) : Bool :=
  match task.phase with
  | .restoring _ | .updatingUsers => true
  | _ => false

/-- The batch of the task is in flight. -/
def inFlight (task : BlockTask) : Bool :=
  task.posts || task.restores

end BlockTask

inductive Event where
  | extracted (task : TaskId) (blockNumber : Nat) (batch : List BatchQueueEntry)
  | finalized (task : TaskId) (result : Finalization)
  | restored (task : TaskId)
  | underflow (task : TaskId)
  deriving DecidableEq

structure State where
  tasks : TaskId → Option BlockTask
  batchQueue : BatchQueue
  lastUploadedBatchBlock : Nat
  postingBatch : Bool
  batchStateLock : Option TaskId
  lastUploadedLock : Option TaskId
  postingLock : Option TaskId
  history : List Event

/-- What `finalize_batch` needs of other crates, and the build. -/
structure Environment where
  cborSerializes : List VerificationData → Bool
  merkleTree : MerkleTreeCrate VerificationDataCommitment Bytes32
  overflowChecks : Bool

inductive Label where
  | spawn (task : TaskId) (blockNumber : Nat)
  | answer (task : TaskId) (gasPrice : Option Nat)
  | lockBatchState (task : TaskId)
  | checkInterval (task : TaskId)
  | lockPosting (task : TaskId) (layout : QueueLayout)
  | updateLastUploaded (task : TaskId)
  | endFinalization (task : TaskId) (result : Finalization)
  | clearPosting (task : TaskId)
  | restore (task : TaskId) (batchQueue : BatchQueue)
  | endRestore (task : TaskId)
  /-- A message handler, a flush or the polling for unlocked balances. -/
  | changeQueue (batchQueue : BatchQueue)

namespace State

def goto (task : TaskId) (blockNumber : Nat) (phase : Phase) (state : State) : State :=
  { state with tasks := Function.update state.tasks task (some ⟨blockNumber, phase⟩) }

def record (event : Event) (state : State) : State :=
  { state with history := state.history ++ [event] }

/-- `listen_new_blocks`: the numbers of the blocks need not increase, because
the last one seen is forgotten when the connection is lost. -/
def spawn (task : TaskId) (blockNumber : Nat) (state : State) : Option State :=
  match state.tasks task with
  | none => some (state.goto task blockNumber .waitingForRpc)
  | some _ => none

/-- The gas price and the disabled verifiers, or an error. -/
def answer (task : TaskId) (gasPrice : Option Nat) (state : State) : Option State :=
  match state.tasks task with
  | some ⟨blockNumber, .waitingForRpc⟩ =>
      match gasPrice with
      | none => some (state.goto task blockNumber (.exited .rpcFailed))
      | some gasPrice => some (state.goto task blockNumber (.waitingForBatchState gasPrice))
  | _ => none

def lockBatchState (task : TaskId) (state : State) : Option State :=
  match state.tasks task with
  | some ⟨blockNumber, .waitingForBatchState gasPrice⟩ =>
      if state.batchStateLock = none then
        some { state.goto task blockNumber (.checking gasPrice) with
          batchStateLock := some task }
      else
        none
  | _ => none

/-- `extract_batch_if_ready` returns before it looks at the flag. -/
def leaveCheck (task : TaskId) (blockNumber : Nat) (exit : Exit) (state : State) : State :=
  { state.goto task blockNumber (.exited exit) with batchStateLock := none }

/-- The two checks.  The second one logs the number of blocks that passed. -/
def checkInterval (minBlockInterval : Nat) (overflowChecks : Bool) (task : TaskId)
    (state : State) : Option State :=
  match state.tasks task with
  | some ⟨blockNumber, .checking gasPrice⟩ =>
      if state.lastUploadedLock ≠ none then
        none
      else if state.batchQueue.len < 1 then
        some (state.leaveCheck task blockNumber .emptyQueue)
      else if blockNumber < state.lastUploadedBatchBlock + minBlockInterval then
        if blockNumber < state.lastUploadedBatchBlock then
          let exit := if overflowChecks then .panicked else .tooEarly
          some ((state.leaveCheck task blockNumber exit).record (.underflow task))
        else
          some (state.leaveCheck task blockNumber .tooEarly)
      else
        some { state.goto task blockNumber (.waitingForPosting gasPrice) with
          lastUploadedLock := some task }
  | _ => none

/-- The rest of `extract_batch_if_ready`, which waits for nothing once it has
the lock of the flag. -/
def lockPosting (config : Config) (task : TaskId) (layout : QueueLayout) (state : State) :
    Option State :=
  match state.tasks task with
  | some ⟨blockNumber, .waitingForPosting gasPrice⟩ =>
      if state.postingLock ≠ none then
        none
      else
        let unlocked := { state with batchStateLock := none, lastUploadedLock := none }
        if state.postingBatch then
          some (unlocked.goto task blockNumber (.exited .beingPosted))
        else
          let modifiedGasPrice := gasPrice * gasPricePercentageMultiplier / percentageDivider
          match extractBatchDirectly layout (config.extractionLimits modifiedGasPrice)
              state.batchQueue with
          | (.error _, rest) =>
              some ({ unlocked with batchQueue := rest }.goto task blockNumber
                (.exited .batchCostTooHigh))
          | (.ok batch, rest) =>
              some (({ unlocked with batchQueue := rest, postingBatch := true }.goto task
                blockNumber (.finalizing batch)).record (.extracted task blockNumber batch))
  | _ => none

/-- `finalize_batch` fails before the counter is written if the batch cannot
be serialized or has no Merkle tree. -/
def updateLastUploaded (environment : Environment) (task : TaskId) (state : State) :
    Option State :=
  match state.tasks task with
  | some ⟨blockNumber, .finalizing batch⟩ =>
      let data := batch.map fun entry => entry.noncedVerificationData.verificationData
      let commitments := batch.map BatchQueueEntry.verificationDataCommitment
      if environment.cborSerializes data && (environment.merkleTree.build commitments).isSome then
        if state.lastUploadedLock = none then
          some { state.goto task blockNumber (.submitting batch) with
            lastUploadedBatchBlock := blockNumber }
        else
          none
      else
        some ((state.goto task blockNumber (.finalized batch .failed)).record
          (.finalized task .failed))
  | _ => none

/-- The upload, the transaction, and the answers, with whatever result. -/
def endFinalization (task : TaskId) (result : Finalization) (state : State) : Option State :=
  match state.tasks task with
  | some ⟨blockNumber, .submitting batch⟩ =>
      some ((state.goto task blockNumber (.finalized batch result)).record
        (.finalized task result))
  | _ => none

/-- The guard of the flag lives until the end of the block, so that it is
still held while the proofs are put back. -/
def clearPosting (task : TaskId) (state : State) : Option State :=
  match state.tasks task with
  | some ⟨blockNumber, .finalized batch result⟩ =>
      if state.postingLock ≠ none then
        none
      else
        let cleared := { state with postingBatch := false }
        match result with
        | .succeeded => some (cleared.goto task blockNumber (.exited .succeeded))
        | .flushed => some (cleared.goto task blockNumber (.exited .flushed))
        | .failed =>
            some { cleared.goto task blockNumber (.restoring batch) with
              postingLock := some task }
  | _ => none

/-- `restore_proofs_after_batch_failure`, up to the update of the users. -/
def restore (task : TaskId) (batchQueue : BatchQueue) (state : State) : Option State :=
  match state.tasks task with
  | some ⟨blockNumber, .restoring _⟩ =>
      if state.batchStateLock = none then
        some (({ state with batchQueue := batchQueue }.goto task blockNumber
          .updatingUsers).record (.restored task))
      else
        none
  | _ => none

def endRestore (task : TaskId) (state : State) : Option State :=
  match state.tasks task with
  | some ⟨blockNumber, .updatingUsers⟩ =>
      some { state.goto task blockNumber (.exited .restored) with postingLock := none }
  | _ => none

def changeQueue (batchQueue : BatchQueue) (state : State) : Option State :=
  if state.batchStateLock = none then some { state with batchQueue := batchQueue } else none

end State

def machine (environment : Environment) (config : Config) : Machine State Label where
  step state label :=
    match label with
    | .spawn task blockNumber => state.spawn task blockNumber
    | .answer task gasPrice => state.answer task gasPrice
    | .lockBatchState task => state.lockBatchState task
    | .checkInterval task =>
        state.checkInterval config.minBlockInterval environment.overflowChecks task
    | .lockPosting task layout => state.lockPosting config task layout
    | .updateLastUploaded task => state.updateLastUploaded environment task
    | .endFinalization task result => state.endFinalization task result
    | .clearPosting task => state.clearPosting task
    | .restore task batchQueue => state.restore task batchQueue
    | .endRestore task => state.endRestore task
    | .changeQueue batchQueue => state.changeQueue batchQueue

/-- The counter starts at the block the batcher was started at. -/
def initial (lastUploadedBatchBlock : Nat) : State :=
  { tasks := fun _ => none
    batchQueue := PriorityQueue.empty
    lastUploadedBatchBlock := lastUploadedBatchBlock
    postingBatch := false
    batchStateLock := none
    lastUploadedLock := none
    postingLock := none
    history := [] }

end BlockTasks

end AlignedLayer
