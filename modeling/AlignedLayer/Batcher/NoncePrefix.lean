import AlignedLayer.Batcher.BatchFinalization
import AlignedLayer.Batcher.Restoration

/-!
# A batch takes the lowest nonces of every sender

The cut of the extraction is made by fee across all senders.  It still takes
the entries of one sender from the lowest nonce upwards, because an equal fee
is resolved by the nonce, and a later nonce never pays more.
-/

namespace AlignedLayer

/-- The entries of every sender are in the order of their nonces. -/
def QueueInNonceOrder (queue : BatchQueue) : Prop :=
  ∀ sender, InNonceOrder (queue.entriesOf sender)

variable {layout : QueueLayout} {limits : ExtractionLimits} {queue rest : BatchQueue}
  {batch : List BatchQueueEntry}

/-- Of two entries of one sender, the one with the lower priority has the lower
nonce. -/
theorem nonce_lt_of_priority_le {low high : BatchQueueEntry}
    (ordered : QueueInNonceOrder queue) (lowMember : low ∈ queue.items)
    (highMember : high ∈ queue.items) (sameSender : low.sender = high.sender)
    (order : low.priority ≤ high.priority) (different : low.key ≠ high.key) :
    low.nonce < high.nonce := by
  have fees : high.nonce < low.nonce → low.maxFee ≤ high.maxFee :=
    (ordered high.sender).fees high (mem_entriesOf.mpr ⟨highMember, rfl⟩) low
      (mem_entriesOf.mpr ⟨lowMember, sameSender⟩)
  have otherNonce : low.nonce ≠ high.nonce := fun same => different (Prod.ext sameSender same)
  rw [BatchQueueEntry.priority_le_iff] at order
  omega

/-- What is above the entries that leave stays in the order of the nonces. -/
theorem InNonceOrder.of_upper {entries upper : List BatchQueueEntry}
    (ordered : InNonceOrder entries) (subset : ∀ entry ∈ upper, entry ∈ entries)
    (closed : ∀ low ∈ upper, ∀ entry ∈ entries, low.nonce ≤ entry.nonce → entry ∈ upper) :
    InNonceOrder upper where
  contiguous low lowMember high highMember nonce above below := by
    obtain ⟨entry, member, same⟩ := ordered.contiguous low (subset low lowMember) high
      (subset high highMember) nonce above below
    refine ⟨entry, closed low lowMember entry member ?_, same⟩
    rwa [same]
  fees low lowMember high highMember :=
    ordered.fees low (subset low lowMember) high (subset high highMember)

namespace Extracted

theorem mem_of_taken (extracted : Extracted limits queue batch rest) {entry : BatchQueueEntry}
    (member : entry ∈ batch) : ∃ stored ∈ extracted.taken, stored.1 = entry := by
  rw [extracted.batch_eq] at member
  exact List.mem_map.mp member

theorem entriesOf_perm (extracted : Extracted limits queue batch rest) (sender : Address) :
    (queue.entriesOf sender).Perm
      ((batch.filter fun entry => entry.sender = sender) ++ rest.entriesOf sender) := by
  have perm := (Shared.items_of_extracted extracted).filter fun entry => entry.sender = sender
  rwa [List.filter_append] at perm

/-- The nonces that are taken from a sender are below those that stay. -/
theorem nonce_lt (extracted : Extracted limits queue batch rest) (own : OwnPriorities queue)
    (ordered : QueueInNonceOrder queue) {low high : BatchQueueEntry} (lowMember : low ∈ batch)
    (highMember : high ∈ rest.items) (sameSender : low.sender = high.sender) :
    low.nonce < high.nonce := by
  have whole := Shared.items_of_extracted extracted
  have lowQueued := whole.mem_iff.mpr (List.mem_append_left _ lowMember)
  have highQueued := whole.mem_iff.mpr (List.mem_append_right _ highMember)
  obtain ⟨lowStored, lowTaken, rfl⟩ := extracted.mem_of_taken lowMember
  obtain ⟨highStored, highLeft, rfl⟩ := List.mem_map.mp highMember
  have order := extracted.separated lowStored lowTaken highStored highLeft
  rw [own lowStored (mem_queue_of_mem_taken extracted lowTaken),
    own highStored (extracted.perm.mem_iff.mpr (List.mem_append_right _ highLeft))] at order
  exact nonce_lt_of_priority_le ordered lowQueued highQueued sameSender order
    (extracted.key_ne lowTaken highLeft)

/-- In the batch the nonces of a sender descend. -/
theorem nonces_descend (extracted : Extracted limits queue batch rest)
    (own : OwnPriorities queue) (ordered : QueueInNonceOrder queue) (sender : Address) :
    (batch.filter fun entry => entry.sender = sender).Pairwise fun first second =>
      second.nonce < first.nonce := by
  rw [extracted.batch_eq, List.filter_map, List.pairwise_map]
  apply (extracted.descends.filter _).imp_of_mem
  rintro first second firstMember secondMember ⟨order, different⟩
  obtain ⟨firstTaken, firstOwn⟩ := List.mem_filter.mp firstMember
  obtain ⟨secondTaken, secondOwn⟩ := List.mem_filter.mp secondMember
  have firstStored := mem_queue_of_mem_taken extracted firstTaken
  have secondStored := mem_queue_of_mem_taken extracted secondTaken
  rw [own first firstStored, own second secondStored] at order
  apply nonce_lt_of_priority_le ordered (mem_items_of_mem secondStored)
    (mem_items_of_mem firstStored) ?_ order different.symm
  exact (of_decide_eq_true secondOwn).trans (of_decide_eq_true firstOwn).symm

/-- What stays of a sender is in the order of its nonces. -/
theorem rest_inNonceOrder (extracted : Extracted limits queue batch rest)
    (own : OwnPriorities queue) (ordered : QueueInNonceOrder queue) : QueueInNonceOrder rest := by
  intro sender
  have perm := extracted.entriesOf_perm sender
  apply (ordered sender).of_upper
  · exact fun entry member => perm.mem_iff.mpr (List.mem_append_right _ member)
  · intro low lowMember entry member above
    rcases List.mem_append.mp (perm.mem_iff.mp member) with taken | stays
    · obtain ⟨inBatch, isSender⟩ := List.mem_filter.mp taken
      obtain ⟨lowLeft, lowSender⟩ := mem_entriesOf.mp lowMember
      have below := extracted.nonce_lt own ordered inBatch lowLeft
        ((of_decide_eq_true isSender).trans lowSender.symm)
      omega
    · exact stays

end Extracted

/-- From a queue in which the nonces of every sender are contiguous and its
fees do not increase with them, a batch takes the entries of every sender with
the lowest nonces; what stays is such a queue again, and read from its end the
batch lists the entries of every sender in ascending order of the nonces. -/
theorem extraction_takes_nonce_prefixes (layout : QueueLayout) (limits : ExtractionLimits)
    (queue : BatchQueue) (own : OwnPriorities queue) (ordered : QueueInNonceOrder queue)
    (batch : List BatchQueueEntry) (rest : BatchQueue)
    (extraction : extractBatchDirectly layout limits queue = (.ok batch, rest)) :
    (∀ sender,
      (queue.entriesOf sender).Perm
        ((batch.filter fun entry => entry.sender = sender) ++ rest.entriesOf sender) ∧
      (∀ taken ∈ batch, taken.sender = sender → ∀ left ∈ rest.entriesOf sender,
        taken.nonce < left.nonce) ∧
      (batch.reverse.filter fun entry => entry.sender = sender).Pairwise
        fun earlier later => earlier.nonce < later.nonce) ∧
    QueueInNonceOrder rest := by
  obtain ⟨extracted⟩ := extracted_of_ok extraction
  refine ⟨?_, extracted.rest_inNonceOrder own ordered⟩
  intro sender
  refine ⟨extracted.entriesOf_perm sender, ?_, ?_⟩
  · rintro taken member rfl left leftMember
    obtain ⟨leftQueued, sameSender⟩ := mem_entriesOf.mp leftMember
    exact extracted.nonce_lt own ordered member leftQueued sameSender.symm
  · rw [List.filter_reverse, List.pairwise_reverse]
    exact extracted.nonces_descend own ordered sender

namespace Sample

/-- Two entries of one user with the same fee. -/
def sameFeeQueue : BatchQueue :=
  (PriorityQueue.empty.push (entry 1 0 1000000) ⟨1000000, 0⟩).push (entry 1 1 1000000)
    ⟨1000000, 1⟩

theorem mem_sameFeeQueue {queued : BatchQueueEntry} :
    queued ∈ sameFeeQueue.items ↔ queued = entry 1 0 1000000 ∨ queued = entry 1 1 1000000 := by
  have items : sameFeeQueue.items = [entry 1 0 1000000, entry 1 1 1000000] := by
    decide
  simp [items]

theorem sameFeeQueue_inNonceOrder : QueueInNonceOrder sameFeeQueue := by
  intro sender
  have known : ∀ queued, queued ∈ sameFeeQueue.entriesOf sender →
      queued = entry 1 0 1000000 ∨ queued = entry 1 1 1000000 :=
    fun queued member => mem_sameFeeQueue.mp (mem_entriesOf.mp member).1
  constructor
  · intro low lowMember high highMember nonce above below
    rcases Nat.eq_or_lt_of_le above with same | later
    · exact ⟨low, lowMember, same⟩
    · refine ⟨high, highMember, ?_⟩
      rcases known low lowMember with rfl | rfl
      · rcases known high highMember with rfl | rfl
        · exact Nat.le_antisymm above below
        · exact Nat.le_antisymm later below
      · rcases known high highMember with rfl | rfl
        · exact absurd (Nat.le_trans above below) (by decide)
        · exact Nat.le_antisymm above below
  · intro low lowMember high highMember order
    rcases known low lowMember with rfl | rfl
    · rcases known high highMember with rfl | rfl
      · exact Nat.le_refl _
      · exact Nat.le_refl _
    · rcases known high highMember with rfl | rfl
      · exact Nat.le_refl _
      · exact Nat.le_refl _

end Sample

/-- With room for one entry the batch takes the one with the lower nonce. -/
theorem extraction_takes_nonce_prefixes_same_fee :
    ∃ batch rest, extractBatchDirectly (Layout.insertion _)
        { Sample.smallLimits with maxBatchProofQty := 1 } Sample.sameFeeQueue = (.ok batch, rest) ∧
      (∀ taken ∈ batch, ∀ left ∈ rest.entriesOf 1, taken.nonce < left.nonce) ∧
      QueueInNonceOrder rest := by
  obtain ⟨prefixes, ordered⟩ := extraction_takes_nonce_prefixes (Layout.insertion _)
    { Sample.smallLimits with maxBatchProofQty := 1 } Sample.sameFeeQueue
    (by unfold OwnPriorities; decide) Sample.sameFeeQueue_inNonceOrder _ _ rfl
  refine ⟨_, _, rfl, ?_, ordered⟩
  intro taken member left leftMember
  have sender : taken.sender = 1 := by
    revert taken
    decide
  exact (prefixes 1).2.1 taken member sender left leftMember

end AlignedLayer
