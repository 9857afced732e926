import AlignedLayer.Library.Machine
import AlignedLayer.Library.PairedMaps
import AlignedLayer.Sdk.VerificationData

/-!
# The task maps of the aggregator

`AddNewTask` enters a batch into five maps under the next index, and the
garbage collector deletes ranges of indices.  Both hold `taskMutex` while they
touch the maps; the collector asks the chain for an old task before it locks,
and takes one step for each turn of its loop.  Indices are `uint32`, so that
the counters wrap.
-/

namespace AlignedLayer

structure BatchData where
  batchMerkleRoot : Bytes32
  senderAddress : Address
  deriving DecidableEq

/-- Where the loop of `ClearTasksFromMaps` stands: before its query, between
the query and the lock, or with the lock and the `i` of its inner loop. -/
inductive Collector where
  | waiting
  | found (oldTaskIdHash : Bytes32)
  | deleting (taskIdxToDelete i : Nat)
  deriving DecidableEq

def Collector.holdsLock : Collector → Bool
  | .deleting _ _ => true
  | .waiting | .found _ => false

structure Aggregator where
  batchesIdentifierHashByIdx : Nat → Option Bytes32
  batchesIdxByIdentifierHash : Bytes32 → Option Nat
  batchCreatedBlockByIdx : Nat → Option Nat
  batchDataByIdentifierHash : Bytes32 → Option BatchData
  batchStartTimeByIdx : Nat → Option Nat
  nextBatchIndex : Nat
  /-- The indices with which tasks were opened in the BLS aggregation service. -/
  openedTasks : List (Nat × BatchData)
  collector : Collector
  lastIdxDeleted : Nat
  exited : Bool

namespace Aggregator

/-- How many values a `uint32` has. -/
def indexLimit : Nat := 2 ^ 32

def new : Aggregator where
  batchesIdentifierHashByIdx _ := none
  batchesIdxByIdentifierHash _ := none
  batchCreatedBlockByIdx _ := none
  batchDataByIdentifierHash _ := none
  batchStartTimeByIdx _ := none
  nextBatchIndex := 0
  openedTasks := []
  collector := .waiting
  lastIdxDeleted := 0
  exited := false

inductive Label where
  /-- A new batch, the time, and whether the BLS service opened the task. -/
  | addNewTask (batchMerkleRoot : Bytes32) (senderAddress : Address) (taskCreatedBlock now : Nat)
      (initialized : Bool)
  /-- The answer of `GetOldTaskHash`; `none` is an error or no old task. -/
  | getOldTaskHash (answer : Option Bytes32)
  /-- The supervisor starts the collector again after a panic in the query. -/
  | restartCollector
  | lockTasks
  | clearTask
  | unlockTasks

def batchIdentifierHash (keccak : Bytes → Bytes32) (batchMerkleRoot : Bytes32)
    (senderAddress : Address) : Bytes32 :=
  keccak (batchMerkleRoot.toList ++ senderAddress.toBytes.toList)

/-- The writes of `AddNewTask`; `Fatalf` ends the process when the BLS service
refuses the task. -/
def enterTask (identifierHash : Bytes32) (batchData : BatchData) (taskCreatedBlock now : Nat)
    (initialized : Bool) (aggregator : Aggregator) : Aggregator :=
  let batchIndex := aggregator.nextBatchIndex
  { aggregator with
    batchesIdxByIdentifierHash :=
      Function.update aggregator.batchesIdxByIdentifierHash identifierHash (some batchIndex)
    batchCreatedBlockByIdx :=
      Function.update aggregator.batchCreatedBlockByIdx batchIndex (some taskCreatedBlock)
    batchesIdentifierHashByIdx :=
      Function.update aggregator.batchesIdentifierHashByIdx batchIndex (some identifierHash)
    batchDataByIdentifierHash :=
      Function.update aggregator.batchDataByIdentifierHash identifierHash (some batchData)
    batchStartTimeByIdx :=
      Function.update aggregator.batchStartTimeByIdx batchIndex (some now)
    nextBatchIndex := (batchIndex + 1) % indexLimit
    openedTasks := aggregator.openedTasks ++ [(batchIndex, batchData)]
    exited := !initialized }

def addNewTask (keccak : Bytes → Bytes32) (batchMerkleRoot : Bytes32) (senderAddress : Address)
    (taskCreatedBlock now : Nat) (initialized : Bool) (aggregator : Aggregator) : Aggregator :=
  let identifierHash := batchIdentifierHash keccak batchMerkleRoot senderAddress
  if (aggregator.batchesIdxByIdentifierHash identifierHash).isSome then
    aggregator
  else if (aggregator.batchesIdentifierHashByIdx aggregator.nextBatchIndex).isSome then
    aggregator
  else
    aggregator.enterTask identifierHash ⟨batchMerkleRoot, senderAddress⟩ taskCreatedBlock now
      initialized

/-- One turn of the inner loop: the entries of index `i` go. -/
def clearTask (i : Nat) (aggregator : Aggregator) : Aggregator :=
  match aggregator.batchesIdentifierHashByIdx i with
  | none => aggregator
  | some identifierHash =>
      { aggregator with
        batchesIdxByIdentifierHash :=
          Function.update aggregator.batchesIdxByIdentifierHash identifierHash none
        batchCreatedBlockByIdx := Function.update aggregator.batchCreatedBlockByIdx i none
        batchesIdentifierHashByIdx := Function.update aggregator.batchesIdentifierHashByIdx i none
        batchDataByIdentifierHash :=
          Function.update aggregator.batchDataByIdentifierHash identifierHash none
        batchStartTimeByIdx := Function.update aggregator.batchStartTimeByIdx i none }

def step (keccak : Bytes → Bytes32) (aggregator : Aggregator) (label : Label) :
    Option Aggregator :=
  if aggregator.exited then none
  else
    match label, aggregator.collector with
    | .addNewTask batchMerkleRoot senderAddress taskCreatedBlock now initialized, collector =>
        if collector.holdsLock then none
        else some (aggregator.addNewTask keccak batchMerkleRoot senderAddress taskCreatedBlock
          now initialized)
    | .getOldTaskHash none, .waiting => some aggregator
    | .getOldTaskHash (some oldTaskIdHash), .waiting =>
        some { aggregator with collector := .found oldTaskIdHash }
    | .restartCollector, .waiting => some { aggregator with lastIdxDeleted := 0 }
    | .lockTasks, .found oldTaskIdHash =>
        -- A missing key reads as index 0.
        let taskIdxToDelete := (aggregator.batchesIdxByIdentifierHash oldTaskIdHash).getD 0
        some { aggregator with
          collector := .deleting taskIdxToDelete ((aggregator.lastIdxDeleted + 1) % indexLimit) }
    | .clearTask, .deleting taskIdxToDelete i =>
        if i ≤ taskIdxToDelete then
          some { aggregator.clearTask i with
            collector := .deleting taskIdxToDelete ((i + 1) % indexLimit) }
        else none
    | .unlockTasks, .deleting taskIdxToDelete i =>
        if i ≤ taskIdxToDelete then none
        else some { aggregator with
          lastIdxDeleted := taskIdxToDelete
          collector := .waiting }
    | _, _ => none

def machine (keccak : Bytes → Bytes32) : Machine Aggregator Label where
  step := step keccak

end Aggregator

end AlignedLayer
