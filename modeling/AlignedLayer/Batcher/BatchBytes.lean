import AlignedLayer.Batcher.BatchFinalization
import AlignedLayer.Sdk.Serialize

/-!
# The bytes of a batch

The queue adds up estimates of the nonced data, and `finalize_batch` posts the
encoding of the data without nonces.
-/

namespace AlignedLayer

/-- The `batch_bytes` of `finalize_batch`. -/
def batchBytes (finalizedBatch : List BatchQueueEntry) : Bytes :=
  cborSerialize (finalizedBatch.map fun entry => entry.noncedVerificationData.verificationData)

theorem length_verificationData_le_bound (data : NoncedVerificationData) :
    (Serialize.verificationData data.verificationData).length ≤ data.cborSizeUpperBound := by
  apply Nat.le_trans (Serialize.length_verificationData_le data.verificationData)
  exact Nat.add_le_add_left (by decide) _

theorem length_cborSerialize_le_bound (data : List NoncedVerificationData) :
    (cborSerialize (data.map NoncedVerificationData.verificationData)).length ≤
      cborArrayMaxOverhead + (data.map NoncedVerificationData.cborSizeUpperBound).sum := by
  apply Nat.le_trans (Serialize.length_cborSerialize_le _)
  rw [List.map_map]
  apply Nat.add_le_add_left
  apply List.sum_le_sum
  intro record _
  exact length_verificationData_le_bound record

theorem batchBytes_eq (finalizedBatch : List BatchQueueEntry) :
    batchBytes finalizedBatch =
      cborSerialize ((finalizedBatch.map BatchQueueEntry.noncedVerificationData).map
        NoncedVerificationData.verificationData) := by
  rw [batchBytes, List.map_map]
  rfl

theorem Extracted.length_batchBytes_le {limits : ExtractionLimits} {queue rest : BatchQueue}
    {batch : List BatchQueueEntry} (extracted : Extracted limits queue batch rest) :
    (batchBytes batch).length ≤ limits.maxBatchByteSize := by
  have bound := length_cborSerialize_le_bound (batch.map BatchQueueEntry.noncedVerificationData)
  have sizes : (batch.map BatchQueueEntry.noncedVerificationData).map
      NoncedVerificationData.cborSizeUpperBound =
      batch.map BatchQueueEntry.cborSizeUpperBound := List.map_map
  rw [sizes] at bound
  rw [batchBytes_eq]
  exact Nat.le_trans bound extracted.size_le

/-- The estimate covers every encoding, and with it the limit every batch. -/
theorem posted_bytes_within_limit :
    (∀ data : List NoncedVerificationData,
      (cborSerialize (data.map NoncedVerificationData.verificationData)).length ≤
        cborArrayMaxOverhead + (data.map NoncedVerificationData.cborSizeUpperBound).sum) ∧
    ∀ (layout : QueueLayout) (limits : ExtractionLimits) (queue rest : BatchQueue)
      (batch : List BatchQueueEntry),
      extractBatchDirectly layout limits queue = (.ok batch, rest) →
      (batchBytes batch).length ≤ limits.maxBatchByteSize := by
  refine ⟨length_cborSerialize_le_bound, ?_⟩
  intro layout limits queue rest batch extraction
  obtain ⟨extracted⟩ := extracted_of_ok extraction
  exact extracted.length_batchBytes_le

theorem posted_bytes_within_limit_tied :
    ∃ batch rest, extractBatchDirectly (Layout.insertion _)
        { Sample.smallLimits with maxBatchByteSize := 4096 } Sample.tiedQueue = (.ok batch, rest) ∧
      (batchBytes batch).length ≤ 4096 :=
  ⟨_, _, rfl, posted_bytes_within_limit.2 (Layout.insertion _)
    { Sample.smallLimits with maxBatchByteSize := 4096 } Sample.tiedQueue _ _ rfl⟩

end AlignedLayer
