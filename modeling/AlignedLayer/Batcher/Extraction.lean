import AlignedLayer.Batcher.BatchQueue

/-!
# What one extraction takes from the queue

`extractBatchDirectly` is described once, by `Extracted`: which entries leave,
which stay, and the test the batch passed.  Later modules use this
description and never unfold the loops.
-/

namespace AlignedLayer

/-- `batch` was taken out of `queue`, and `rest` stays. -/
structure Extracted (limits : ExtractionLimits) (queue : BatchQueue)
    (batch : List BatchQueueEntry) (rest : BatchQueue) where
  taken : List (BatchQueueEntry × BatchQueueEntryPriority)
  batch_eq : batch = taken.map Prod.fst
  perm : queue.entries.Perm (taken ++ rest.entries)
  /-- Every entry that stays has at least the priority of every taken one. -/
  separated : ∀ low ∈ taken, ∀ high ∈ rest.entries, low.2 ≤ high.2
  ordered : taken.Pairwise fun first second => second.2 ≤ first.2
  /-- The entry at the head of the queue when the first loop ended. -/
  lowest : BatchQueueEntry × BatchQueueEntryPriority
  lowest_mem : lowest ∈ taken
  le_lowest : ∀ entry ∈ taken, entry.2 ≤ lowest.2
  size_le : cborArrayMaxOverhead + (batch.map BatchQueueEntry.cborSizeUpperBound).sum ≤
    limits.maxBatchByteSize
  fee_le : calculateFeePerProof batch.length limits.gasPrice limits.constantGasCost ≤
    lowest.1.maxFee
  length_le : batch.length ≤ limits.maxBatchProofQty

theorem Extracted.ne_nil {limits : ExtractionLimits} {queue rest : BatchQueue}
    {batch : List BatchQueueEntry} (extracted : Extracted limits queue batch rest) :
    batch ≠ [] := by
  have nonempty : extracted.taken ≠ [] := List.ne_nil_of_mem extracted.lowest_mem
  rw [extracted.batch_eq, ne_eq, List.map_eq_nil_iff]
  exact nonempty

theorem BatchQueueEntry.priority_le_iff {low high : BatchQueueEntry} :
    low.priority ≤ high.priority ↔
      high.maxFee < low.maxFee ∨ (low.maxFee = high.maxFee ∧ low.nonce ≤ high.nonce) :=
  Iff.rfl

/-- The fee the extraction settled on is covered by every entry it took. -/
theorem Extracted.fee_le_maxFee {limits : ExtractionLimits} {queue rest : BatchQueue}
    {batch : List BatchQueueEntry}
    (own : ∀ entry ∈ queue.entries, entry.2 = entry.1.priority)
    (extracted : Extracted limits queue batch rest) :
    ∀ entry ∈ batch,
      calculateFeePerProof batch.length limits.gasPrice limits.constantGasCost ≤
        entry.maxFee := by
  have inQueue : ∀ entry ∈ extracted.taken, entry ∈ queue.entries := fun entry member =>
    extracted.perm.mem_iff.mpr (List.mem_append_left _ member)
  intro entry member
  rw [extracted.batch_eq] at member
  obtain ⟨stored, storedMember, rfl⟩ := List.mem_map.mp member
  have order := extracted.le_lowest stored storedMember
  rw [own stored (inQueue stored storedMember),
    own extracted.lowest (inQueue _ extracted.lowest_mem),
    BatchQueueEntry.priority_le_iff] at order
  have covered := extracted.fee_le
  omega

/-- No two of the entries that are taken or stay share a sender and nonce. -/
theorem Extracted.keys_nodup {limits : ExtractionLimits} {queue rest : BatchQueue}
    {batch : List BatchQueueEntry} (extracted : Extracted limits queue batch rest) :
    ((extracted.taken ++ rest.entries).map fun stored => stored.1.key).Nodup := by
  rw [← (extracted.perm.map fun stored => stored.1.key).nodup_iff]
  exact queue.unique

/-- The taken entries descend in their priority, with distinct keys. -/
theorem Extracted.descends {limits : ExtractionLimits} {queue rest : BatchQueue}
    {batch : List BatchQueueEntry} (extracted : Extracted limits queue batch rest) :
    extracted.taken.Pairwise fun first second =>
      second.2 ≤ first.2 ∧ first.1.key ≠ second.1.key := by
  have keys := extracted.keys_nodup
  rw [List.map_append] at keys
  exact extracted.ordered.and (List.pairwise_map.mp keys.of_append_left)

/-- A taken entry has another key than one that stays. -/
theorem Extracted.key_ne {limits : ExtractionLimits} {queue rest : BatchQueue}
    {batch : List BatchQueueEntry} (extracted : Extracted limits queue batch rest)
    {low high : BatchQueueEntry × BatchQueueEntryPriority} (lowMember : low ∈ extracted.taken)
    (highMember : high ∈ rest.entries) : low.1.key ≠ high.1.key := by
  have keys := extracted.keys_nodup
  rw [List.map_append, List.nodup_append] at keys
  exact keys.2.2 _ (List.mem_map_of_mem lowMember) _ (List.mem_map_of_mem highMember)

theorem calculateBatchSize_of_perm {queue : BatchQueue}
    {entries : List (BatchQueueEntry × BatchQueueEntryPriority)}
    (perm : queue.entries.Perm entries) :
    calculateBatchSize queue =
      cborArrayMaxOverhead +
        ((entries.map Prod.fst).map BatchQueueEntry.cborSizeUpperBound).sum := by
  rw [calculateBatchSize, PriorityQueue.items, ((perm.map _).map _).sum_eq]

theorem calculateBatchSize_pop {layout : QueueLayout} {queue rest : BatchQueue}
    {top : BatchQueueEntry × BatchQueueEntryPriority}
    (popped : queue.pop layout = some (top, rest)) :
    calculateBatchSize queue - top.1.cborSizeUpperBound = calculateBatchSize rest := by
  obtain ⟨peeked, rfl⟩ := PriorityQueue.pop_eq_some.mp popped
  rw [calculateBatchSize_of_perm (PriorityQueue.perm_erase (PriorityQueue.peek_mem peeked)),
    calculateBatchSize_of_perm (List.Perm.refl _)]
  simp only [List.map_cons, List.sum_cons]
  omega

theorem len_pop {layout : QueueLayout} {queue rest : BatchQueue}
    {top : BatchQueueEntry × BatchQueueEntryPriority}
    (popped : queue.pop layout = some (top, rest)) : rest.len + 1 = queue.len := by
  obtain ⟨peeked, rfl⟩ := PriorityQueue.pop_eq_some.mp popped
  exact PriorityQueue.len_erase (PriorityQueue.peek_mem peeked)

/-- The first loop pops entries until the queue is empty or its head is
acceptable for a batch of everything that is left. -/
theorem removeEntries_spec (layout : QueueLayout) (limits : ExtractionLimits) {turns : Nat}
    {queue : BatchQueue} (enough : queue.len ≤ turns)
    (rejected : List (BatchQueueEntry × BatchQueueEntryPriority)) :
    ∃ popped viable,
      removeEntries layout limits turns queue (calculateBatchSize queue) rejected =
        (viable, rejected ++ popped) ∧
      PriorityQueue.Pops layout queue popped viable ∧
      ∀ top, viable.peek layout = some top →
        shouldRemove limits viable.len (calculateBatchSize viable) top.1 = false := by
  induction turns generalizing queue rejected with
  | zero =>
      refine ⟨[], queue, by simp [removeEntries], .nil queue, ?_⟩
      intro top peeked
      have member := PriorityQueue.peek_mem peeked
      rw [List.length_eq_zero_iff.mp (Nat.le_zero.mp enough)] at member
      exact absurd member List.not_mem_nil
  | succ turns induction =>
      rw [removeEntries]
      cases popped : queue.pop layout with
      | none =>
          refine ⟨[], queue, by simp, .nil queue, ?_⟩
          intro top peeked
          rw [PriorityQueue.pop, peeked] at popped
          cases popped
      | some found =>
          obtain ⟨top, rest⟩ := found
          simp only
          split
          · have restLen := len_pop popped
            obtain ⟨later, viable, equation, pops, acceptable⟩ :=
              induction (show rest.len ≤ turns by omega) (rejected ++ [top])
            refine ⟨top :: later, viable, ?_, .cons popped pops, acceptable⟩
            rw [calculateBatchSize_pop popped, equation, List.append_assoc,
              List.singleton_append]
          · rename_i kept
            refine ⟨[], queue, by simp, .nil queue, ?_⟩
            intro other peeked
            obtain ⟨topPeeked, -⟩ := PriorityQueue.pop_eq_some.mp popped
            rw [topPeeked, Option.some.injEq] at peeked
            exact peeked ▸ Bool.eq_false_iff.mpr kept

theorem popRemaining_spec (layout : QueueLayout) {turns : Nat} {queue : BatchQueue}
    (enough : queue.len ≤ turns) :
    ∃ popped final, popRemaining layout turns queue = (popped, final) ∧
      PriorityQueue.Pops layout queue popped final ∧ final.entries = [] := by
  induction turns generalizing queue with
  | zero =>
      exact ⟨[], queue, rfl, .nil queue, List.length_eq_zero_iff.mp (Nat.le_zero.mp enough)⟩
  | succ turns induction =>
      rw [popRemaining]
      cases popped : queue.pop layout with
      | none => exact ⟨[], queue, rfl, .nil queue, PriorityQueue.pop_eq_none.mp popped⟩
      | some found =>
          obtain ⟨top, rest⟩ := found
          have restLen := len_pop popped
          obtain ⟨later, final, equation, pops, emptied⟩ :=
            induction (show rest.len ≤ turns by omega)
          exact ⟨top :: later, final, by simp [equation], .cons popped pops, emptied⟩

/-- Putting the rejected entries back next to nothing, or next to what the
loop left, gives a queue with exactly these entries. -/
private theorem pushAll_rejected {layout : QueueLayout} {queue viable : BatchQueue}
    {rejected : List (BatchQueueEntry × BatchQueueEntryPriority)}
    (pops : PriorityQueue.Pops layout queue rejected viable) :
    (viable.pushAll rejected).entries.Perm (rejected ++ viable.entries) := by
  apply PriorityQueue.pushAll_perm
  rw [← (pops.perm.map _).nodup_iff]
  exact queue.unique

private theorem pushAll_onto_drained {layout : QueueLayout} {queue viable drained : BatchQueue}
    {rejected : List (BatchQueueEntry × BatchQueueEntryPriority)}
    (pops : PriorityQueue.Pops layout queue rejected viable) (emptied : drained.entries = []) :
    (drained.pushAll rejected).entries.Perm rejected := by
  have unique := queue.unique
  rw [(pops.perm.map _).nodup_iff, List.map_append] at unique
  have pushed : (drained.pushAll rejected).entries.Perm (rejected ++ drained.entries) := by
    apply PriorityQueue.pushAll_perm
    rw [emptied, List.append_nil]
    exact unique.of_append_left
  simpa [emptied] using pushed

/-- Either a batch is taken as `Extracted` says, or the queue keeps its
entries. -/
theorem extractBatchDirectly_cases (layout : QueueLayout) (limits : ExtractionLimits)
    (queue : BatchQueue) :
    (∃ batch rest, extractBatchDirectly layout limits queue = (.ok batch, rest) ∧
      Nonempty (Extracted limits queue batch rest)) ∨
    ∃ rest, extractBatchDirectly layout limits queue = (.error .batchCostTooHigh, rest) ∧
      rest.entries.Perm queue.entries := by
  obtain ⟨rejected, viable, removed, pops, acceptable⟩ :=
    removeEntries_spec layout limits (Nat.le_refl queue.len) []
  rw [List.nil_append] at removed
  simp only [extractBatchDirectly, removed]
  by_cases nothing : viable.entries = []
  · refine .inr ⟨viable.pushAll rejected, by simp [nothing], ?_⟩
    exact (pushAll_rejected pops).trans pops.perm.symm
  · obtain ⟨taken, drained, drain, drains, emptied⟩ :=
      popRemaining_spec layout (Nat.le_refl viable.len)
    have viablePerm : viable.entries.Perm taken := by
      simpa [emptied] using drains.perm
    have restPerm := pushAll_onto_drained pops emptied
    obtain ⟨lowest, peeked⟩ := Option.ne_none_iff_exists'.mp
      (fun missing => nothing (PriorityQueue.peek_eq_none.mp missing))
    have accepted := acceptable lowest peeked
    simp only [shouldRemove, Bool.or_eq_false_iff, decide_eq_false_iff_not, Nat.not_lt,
      gt_iff_lt] at accepted
    obtain ⟨⟨sizeFits, feeCovered⟩, lengthFits⟩ := accepted
    have lengths : (taken.map Prod.fst).length = viable.len := by
      rw [List.length_map, PriorityQueue.len, viablePerm.length_eq]
    refine .inl ⟨taken.map Prod.fst, drained.pushAll rejected, by simp [nothing, drain], ⟨?_⟩⟩
    exact
      { taken := taken
        batch_eq := rfl
        perm := (pops.perm.trans (viablePerm.append_left _)).trans
          (List.perm_append_comm.trans (restPerm.symm.append_left _))
        separated := fun low lowMember high highMember =>
          pops.separates high (restPerm.mem_iff.mp highMember) low
            (viablePerm.mem_iff.mpr lowMember)
        ordered := drains.pairwise
        lowest := lowest
        lowest_mem := viablePerm.mem_iff.mp (PriorityQueue.peek_mem peeked)
        le_lowest := fun entry member =>
          PriorityQueue.le_of_peek peeked (viablePerm.mem_iff.mpr member)
        size_le := by rwa [← calculateBatchSize_of_perm viablePerm]
        fee_le := by rwa [lengths]
        length_le := by rwa [lengths] }

theorem extracted_of_ok {layout : QueueLayout} {limits : ExtractionLimits}
    {queue rest : BatchQueue} {batch : List BatchQueueEntry}
    (extraction : extractBatchDirectly layout limits queue = (.ok batch, rest)) :
    Nonempty (Extracted limits queue batch rest) := by
  rcases extractBatchDirectly_cases layout limits queue with
    ⟨otherBatch, otherRest, equation, extracted⟩ | ⟨otherRest, equation, -⟩
  · rw [equation, Prod.mk.injEq, Except.ok.injEq] at extraction
    obtain ⟨rfl, rfl⟩ := extraction
    exact extracted
  · rw [equation] at extraction
    cases extraction

theorem perm_of_error {layout : QueueLayout} {limits : ExtractionLimits}
    {queue rest : BatchQueue} {error : BatcherError}
    (extraction : extractBatchDirectly layout limits queue = (.error error, rest)) :
    rest.entries.Perm queue.entries := by
  rcases extractBatchDirectly_cases layout limits queue with
    ⟨_, _, equation, -⟩ | ⟨otherRest, equation, perm⟩
  · rw [equation] at extraction
    cases extraction
  · rw [equation, Prod.mk.injEq] at extraction
    exact extraction.2 ▸ perm

end AlignedLayer
