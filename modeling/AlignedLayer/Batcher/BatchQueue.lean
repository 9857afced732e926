import AlignedLayer.Library.PriorityQueue
import AlignedLayer.Sdk.Constants
import AlignedLayer.Sdk.Messages

/-!
# The batch queue

Entries, their priority, and the extraction of a batch from the queue.
-/

namespace AlignedLayer

structure BatchQueueEntry where
  noncedVerificationData : NoncedVerificationData
  verificationDataCommitment : VerificationDataCommitment
  messagingSink : Option WsMessageSink
  signature : Signature
  sender : Address
  deriving DecidableEq

namespace BatchQueueEntry

abbrev nonce (entry : BatchQueueEntry) : Nat :=
  entry.noncedVerificationData.nonce

abbrev maxFee (entry : BatchQueueEntry) : Nat :=
  entry.noncedVerificationData.maxFee

/-- Two entries are equal for the queue if they have the same sender and nonce. -/
def key (entry : BatchQueueEntry) : Address × Nat :=
  (entry.sender, entry.nonce)

end BatchQueueEntry

structure BatchQueueEntryPriority where
  maxFee : Nat
  nonce : Nat
  deriving DecidableEq

namespace BatchQueueEntryPriority

/-- Lowest `max_fee` first, then highest nonce first: the greatest priority is
the entry to be dropped next. -/
def cmp (self other : BatchQueueEntryPriority) : Ordering :=
  match compare other.maxFee self.maxFee with
  | .eq => compare self.nonce other.nonce
  | order => order

instance : LE BatchQueueEntryPriority :=
  ⟨fun left right =>
    right.maxFee < left.maxFee ∨ (left.maxFee = right.maxFee ∧ left.nonce ≤ right.nonce)⟩

theorem le_def {left right : BatchQueueEntryPriority} :
    left ≤ right ↔
      right.maxFee < left.maxFee ∨ (left.maxFee = right.maxFee ∧ left.nonce ≤ right.nonce) :=
  Iff.rfl

instance (left right : BatchQueueEntryPriority) : Decidable (left ≤ right) :=
  decidable_of_iff _ le_def.symm

instance : LinearOrder BatchQueueEntryPriority where
  le_refl priority := le_def.mpr (.inr ⟨rfl, Nat.le_refl _⟩)
  le_trans left middle right := by
    rw [le_def, le_def, le_def]
    omega
  le_antisymm left right := by
    rw [le_def, le_def]
    cases left
    cases right
    simp only [BatchQueueEntryPriority.mk.injEq]
    omega
  le_total left right := by
    rw [le_def, le_def]
    omega
  toDecidableLE := inferInstance

/-- The order the queue is instantiated with is the one `cmp` decides. -/
theorem cmp_ne_gt_iff {left right : BatchQueueEntryPriority} :
    cmp left right ≠ .gt ↔ left ≤ right := by
  rw [le_def, cmp]
  rcases Nat.lt_trichotomy right.maxFee left.maxFee with below | same | above
  · simp [Nat.compare_eq_lt.mpr below, below]
  · rw [Nat.compare_eq_eq.mpr same, ne_eq, Nat.compare_eq_gt]
    omega
  · rw [Nat.compare_eq_gt.mpr above]
    simp only [ne_eq, not_true_eq_false, false_iff]
    omega

end BatchQueueEntryPriority

def BatchQueueEntry.priority (entry : BatchQueueEntry) : BatchQueueEntryPriority :=
  ⟨entry.maxFee, entry.nonce⟩

abbrev BatchQueue := PriorityQueue BatchQueueEntry.key BatchQueueEntryPriority

abbrev QueueLayout := Layout (BatchQueueEntry × BatchQueueEntryPriority)

inductive BatcherError where
  | batchUploadError
  | taskCreationError
  | receiptNotFoundError
  | transactionSendError
  | submissionInsufficientBalance (address : Address)
  | serializationError
  | batchCostTooHigh
  | wsSinkEmpty
  | stateCorruptedAndFlushed
  deriving DecidableEq

def BatchQueueEntry.cborSizeUpperBound (entry : BatchQueueEntry) : Nat :=
  entry.noncedVerificationData.cborSizeUpperBound

/-- The over-estimated size in bytes of a batch with the entries of the queue. -/
def calculateBatchSize (queue : BatchQueue) : Nat :=
  cborArrayMaxOverhead + (queue.items.map BatchQueueEntry.cborSizeUpperBound).sum

def calculateFeePerProof (batchLen : Nat) (gasPrice : Nat) (constantGasCost : Nat) : Nat :=
  (constantGasCost + additionalSubmissionGasCostPerProof * batchLen) / batchLen * gasPrice

/-- The gas price, the limits and the constant cost one extraction works with. -/
structure ExtractionLimits where
  gasPrice : Nat
  maxBatchByteSize : Nat
  maxBatchProofQty : Nat
  constantGasCost : Nat

/-- The test of the loop: a batch of the whole queue with this lowest entry is
not acceptable. -/
def shouldRemove (limits : ExtractionLimits) (batchLen batchSize : Nat)
    (entry : BatchQueueEntry) : Bool :=
  batchSize > limits.maxBatchByteSize
    || calculateFeePerProof batchLen limits.gasPrice limits.constantGasCost > entry.maxFee
    || batchLen > limits.maxBatchProofQty

/-- The first loop of `extract_batch_directly`.  Every turn pops one entry, so
the length of the queue bounds the number of turns. -/
def removeEntries (layout : QueueLayout) (limits : ExtractionLimits) :
    Nat → BatchQueue → Nat → List (BatchQueueEntry × BatchQueueEntryPriority) →
      BatchQueue × List (BatchQueueEntry × BatchQueueEntryPriority)
  | 0, queue, _, rejected => (queue, rejected)
  | turns + 1, queue, batchSize, rejected =>
      match queue.pop layout with
      | none => (queue, rejected)
      | some (top, rest) =>
          if shouldRemove limits queue.len batchSize top.1 then
            removeEntries layout limits turns rest (batchSize - top.1.cborSizeUpperBound)
              (rejected ++ [top])
          else
            (queue, rejected)

/-- Pops everything that is left, in priority order. -/
def popRemaining (layout : QueueLayout) :
    Nat → BatchQueue → List (BatchQueueEntry × BatchQueueEntryPriority) × BatchQueue
  | 0, queue => ([], queue)
  | turns + 1, queue =>
      match queue.pop layout with
      | none => ([], queue)
      | some (top, rest) =>
          let (popped, final) := popRemaining layout turns rest
          (top :: popped, final)

def extractBatchDirectly (layout : QueueLayout) (limits : ExtractionLimits)
    (queue : BatchQueue) : Except BatcherError (List BatchQueueEntry) × BatchQueue :=
  let (viable, rejected) :=
    removeEntries layout limits queue.len queue (calculateBatchSize queue) []
  if viable.entries.isEmpty then
    (.error .batchCostTooHigh, viable.pushAll rejected)
  else
    let (batch, drained) := popRemaining layout viable.len viable
    (.ok (batch.map Prod.fst), drained.pushAll rejected)

end AlignedLayer
