import AlignedLayer.Batcher.Config
import AlignedLayer.Batcher.Extraction
import AlignedLayer.Contracts.Charging
import Mathlib.Algebra.Order.BigOperators.Group.List
import Mathlib.Algebra.Order.Ring.Nat

/-!
# The fee of a submitted batch

`submit_batch` computes the fee per proof a second time, from the number of
leaves of the batch.  It is the fee the last turn of the extraction compared
with the entry of lowest `max_fee`, so no entry pays more than it offered.
No product or sum of the computation is assumed to overflow its type.
-/

namespace AlignedLayer

structure CreateNewTaskFeeParams where
  feeForAggregator : Nat
  feePerProof : Nat
  gasPrice : Nat
  respondToTaskFeeLimit : Nat
  deriving DecidableEq

/-- The fee parameters `submit_batch` computes for a batch of `numProofsInBatch`. -/
def Config.feeParams (config : Config) (numProofsInBatch gasPrice : Nat) :
    CreateNewTaskFeeParams :=
  let gasPerProof :=
    (config.constantGasCost + additionalSubmissionGasCostPerProof * numProofsInBatch)
      / numProofsInBatch
  let feePerProof := gasPerProof * gasPrice
  let feeForAggregator :=
    config.aggregatorGasCost * gasPrice * config.aggregatorFeePercentageMultiplier
      / percentageDivider
  let respondToTaskFeeLimit :=
    feeForAggregator * respondToTaskFeeLimitPercentageMultiplier / percentageDivider
  { feeForAggregator, feePerProof, gasPrice, respondToTaskFeeLimit }

def batchLeaves (keccak : Bytes → Bytes32) (finalizedBatch : List BatchQueueEntry) :
    List Bytes32 :=
  finalizedBatch.map fun entry =>
    VerificationCommitmentBatch.hashData keccak entry.verificationDataCommitment

/-- The call `submit_batch` makes for a batch with the given Merkle root. -/
def Config.createNewTaskCall (config : Config) (keccak : Bytes → Bytes32)
    (batchMerkleRoot : Bytes32) (finalizedBatch : List BatchQueueEntry) (gasPrice : Nat) :
    BatcherPaymentService.CreateNewTask :=
  let params := config.feeParams (batchLeaves keccak finalizedBatch).length gasPrice
  { batchMerkleRoot := batchMerkleRoot
    proofSubmitters := finalizedBatch.map BatchQueueEntry.sender
    feeForAggregator := params.feeForAggregator
    feePerProof := params.feePerProof
    respondToTaskFeeLimit := params.respondToTaskFeeLimit }

theorem Config.feeParams_feePerProof (config : Config) (numProofsInBatch gasPrice : Nat) :
    (config.feeParams numProofsInBatch gasPrice).feePerProof =
      calculateFeePerProof numProofsInBatch gasPrice config.constantGasCost := rfl

theorem batchLeaves_length (keccak : Bytes → Bytes32) (batch : List BatchQueueEntry) :
    (batchLeaves keccak batch).length = batch.length :=
  List.length_map _

/-- The fees that the entries of one sender offer for a batch. -/
def offeredBy (sender : Address) (batch : List BatchQueueEntry) : Nat :=
  ((batch.filter fun entry => entry.sender = sender).map BatchQueueEntry.maxFee).sum

theorem count_senders (sender : Address) (batch : List BatchQueueEntry) :
    (batch.map BatchQueueEntry.sender).count sender =
      (batch.filter fun entry => entry.sender = sender).length := by
  rw [List.count, List.countP_map, List.countP_eq_length_filter]
  congr 1

theorem fee_mul_count_le_offeredBy {fee : Nat} {batch : List BatchQueueEntry}
    (covered : ∀ entry ∈ batch, fee ≤ entry.maxFee) (sender : Address) :
    fee * (batch.map BatchQueueEntry.sender).count sender ≤ offeredBy sender batch := by
  have bound := List.card_nsmul_le_sum
    ((batch.filter fun entry => entry.sender = sender).map BatchQueueEntry.maxFee) fee (by
      intro maxFee member
      obtain ⟨entry, entryMember, rfl⟩ := List.mem_map.mp member
      exact covered entry (List.mem_filter.mp entryMember).1)
  rw [List.length_map, Nat.nsmul_eq_mul] at bound
  rw [count_senders, offeredBy, Nat.mul_comm]
  exact bound

/-- One entry that offers exactly the fee of a batch of one. -/
def Sample.singleEntryQueue : BatchQueue :=
  PriorityQueue.empty.push (entry 1 0 127000) (entry 1 0 127000).priority

end AlignedLayer
