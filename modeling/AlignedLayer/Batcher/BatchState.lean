import AlignedLayer.Batcher.Config

/-!
# Questions the handlers ask about the queue

The methods of `BatchState` and of the batcher that only read the queue, each
with the fact about its answer that later modules use.  Where the answer does
not depend on the iteration order, no layout is passed.
-/

namespace AlignedLayer

/-- The queued entries of one sender. -/
def BatchQueue.entriesOf (queue : BatchQueue) (sender : Address) : List BatchQueueEntry :=
  queue.items.filter fun entry => entry.sender = sender

namespace BatchState

def isQueueFull (maxSize : Nat) (queue : BatchQueue) : Bool :=
  queue.len ≥ maxSize

def getEntry (queue : BatchQueue) (sender : Address) (nonce : Nat) : Option BatchQueueEntry :=
  (queue.find? (sender, nonce)).map Prod.fst

/-- The lowest `max_fee` among the user's entries. -/
def getUserMinFeeInBatch (queue : BatchQueue) (address : Address) : Nat :=
  (((queue.entriesOf address).map BatchQueueEntry.maxFee).min?).getD u256Max

/-- No entry of the same sender has a lower nonce and a lower fee. -/
def replacementEntryIsValid (queue : BatchQueue) (replacement : BatchQueueEntry) : Bool :=
  !queue.items.any fun entry =>
    entry.sender = replacement.sender && entry.nonce < replacement.nonce
      && entry.maxFee < replacement.maxFee

end BatchState

theorem mem_entriesOf {queue : BatchQueue} {sender : Address} {entry : BatchQueueEntry} :
    entry ∈ queue.entriesOf sender ↔ entry ∈ queue.items ∧ entry.sender = sender := by
  simp [BatchQueue.entriesOf]

namespace BatchState

theorem getEntry_eq_some {queue : BatchQueue} {sender : Address} {nonce : Nat}
    {entry : BatchQueueEntry} (found : getEntry queue sender nonce = some entry) :
    (∃ priority, (entry, priority) ∈ queue.entries) ∧ entry.key = (sender, nonce) := by
  obtain ⟨stored, storedFound, rfl⟩ := Option.map_eq_some_iff.mp found
  obtain ⟨member, same⟩ := PriorityQueue.find?_eq_some storedFound
  exact ⟨⟨stored.2, member⟩, same⟩

theorem replacementEntryIsValid_iff {queue : BatchQueue} {replacement : BatchQueueEntry} :
    replacementEntryIsValid queue replacement = true ↔
      ∀ entry ∈ queue.items, entry.sender = replacement.sender →
        entry.nonce < replacement.nonce → replacement.maxFee ≤ entry.maxFee := by
  simp [replacementEntryIsValid]

/-- The reported fee is at most every queued one, and it is one of them. -/
theorem getUserMinFeeInBatch_spec (queue : BatchQueue) (address : Address) :
    (queue.entriesOf address = [] ∧ getUserMinFeeInBatch queue address = u256Max) ∨
      ((∃ entry ∈ queue.entriesOf address, entry.maxFee = getUserMinFeeInBatch queue address) ∧
        ∀ entry ∈ queue.entriesOf address,
          getUserMinFeeInBatch queue address ≤ entry.maxFee) := by
  cases smallest : ((queue.entriesOf address).map BatchQueueEntry.maxFee).min? with
  | none =>
      left
      rw [List.min?_eq_none_iff, List.map_eq_nil_iff] at smallest
      simp [getUserMinFeeInBatch, smallest]
  | some fee =>
      right
      have value : getUserMinFeeInBatch queue address = fee := by
        simp [getUserMinFeeInBatch, smallest]
      obtain ⟨member, least⟩ := List.min?_eq_some_iff.mp smallest
      obtain ⟨entry, entryMember, same⟩ := List.mem_map.mp member
      rw [value]
      exact ⟨⟨entry, entryMember, same⟩, fun other otherMember =>
        least _ (List.mem_map_of_mem otherMember)⟩

end BatchState

end AlignedLayer
