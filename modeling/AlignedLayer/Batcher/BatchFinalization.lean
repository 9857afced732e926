import AlignedLayer.Batcher.Config
import AlignedLayer.Batcher.Extraction
import AlignedLayer.Library.Suffixes
import Mathlib.Algebra.Order.BigOperators.Group.List
import Mathlib.Algebra.Order.Ring.Nat
import Mathlib.Data.List.Perm.Subperm

/-!
# The batch finalization algorithm

The first loop drops entries until the head of the queue is acceptable for a
batch of everything that is left.  So the batch is the longest acceptable
suffix of the queue in the order in which it is popped, and no subset of the
queue is larger unless the byte limit is in the way.
-/

namespace AlignedLayer

abbrev QueuedEntry := BatchQueueEntry × BatchQueueEntryPriority

/-- The entries in the order in which they are popped: the one to be dropped
first at the front, ties as the queue resolves them. -/
def popOrder (layout : QueueLayout) (queue : BatchQueue) : List QueuedEntry :=
  (popRemaining layout queue.len queue).1

/-- A batch within the limits in which every entry pays the fee of the batch. -/
structure Acceptable (limits : ExtractionLimits) (batch : List BatchQueueEntry) : Prop where
  length_le : batch.length ≤ limits.maxBatchProofQty
  size_le : cborArrayMaxOverhead + (batch.map BatchQueueEntry.cborSizeUpperBound).sum ≤
    limits.maxBatchByteSize
  fee_le : ∀ entry ∈ batch,
    calculateFeePerProof batch.length limits.gasPrice limits.constantGasCost ≤ entry.maxFee

/-- The priority of every entry is the one of its data, as all callers push it. -/
def OwnPriorities (queue : BatchQueue) : Prop :=
  ∀ entry ∈ queue.entries, entry.2 = entry.1.priority

/-- The loop stops with these entries left in the queue. -/
def stopsAt (limits : ExtractionLimits) (entries : List QueuedEntry) : Bool :=
  match entries with
  | [] => true
  | top :: _ => !shouldRemove limits entries.length
      (cborArrayMaxOverhead + ((entries.map Prod.fst).map BatchQueueEntry.cborSizeUpperBound).sum)
      top.1

/-- The first loop with the subtraction of `usize`: none if it underflows. -/
def removeEntriesChecked (layout : QueueLayout) (limits : ExtractionLimits) :
    Nat → BatchQueue → Nat → List QueuedEntry → Option (BatchQueue × List QueuedEntry)
  | 0, queue, _, rejected => some (queue, rejected)
  | turns + 1, queue, batchSize, rejected =>
      match queue.pop layout with
      | none => some (queue, rejected)
      | some (top, rest) =>
          if shouldRemove limits queue.len batchSize top.1 then
            if top.1.cborSizeUpperBound ≤ batchSize then
              removeEntriesChecked layout limits turns rest
                (batchSize - top.1.cborSizeUpperBound) (rejected ++ [top])
            else
              none
          else
            some (queue, rejected)

variable {layout : QueueLayout} {limits : ExtractionLimits} {queue : BatchQueue}

/-! ## The running size -/

theorem cborSizeUpperBound_le_calculateBatchSize {entry : QueuedEntry}
    (member : entry ∈ queue.entries) :
    entry.1.cborSizeUpperBound ≤ calculateBatchSize queue := by
  rw [calculateBatchSize_of_perm (PriorityQueue.perm_erase member)]
  simp only [List.map_cons, List.sum_cons]
  omega

/-- The running size is the size of what is left, so it never underflows. -/
theorem removeEntriesChecked_eq (turns : Nat) (rejected : List QueuedEntry) :
    removeEntriesChecked layout limits turns queue (calculateBatchSize queue) rejected =
      some (removeEntries layout limits turns queue (calculateBatchSize queue) rejected) := by
  induction turns generalizing queue rejected with
  | zero => rfl
  | succ turns induction =>
      rw [removeEntriesChecked, removeEntries]
      cases popped : queue.pop layout with
      | none => rfl
      | some found =>
          obtain ⟨top, rest⟩ := found
          have peeked := (PriorityQueue.pop_eq_some.mp popped).1
          have covered := cborSizeUpperBound_le_calculateBatchSize (PriorityQueue.peek_mem peeked)
          dsimp only
          split
          · rw [calculateBatchSize_pop popped, induction]
          · rfl

/-! ## The loops along the order of popping -/

theorem len_of_pops {final : BatchQueue} {order : List QueuedEntry}
    (pops : PriorityQueue.Pops layout queue order final) (emptied : final.entries = []) :
    queue.len = order.length := by
  rw [PriorityQueue.len, pops.perm.length_eq, emptied, List.append_nil]

theorem popRemaining_eq {final : BatchQueue} {order : List QueuedEntry} {turns : Nat}
    (pops : PriorityQueue.Pops layout queue order final) (emptied : final.entries = [])
    (enough : queue.len ≤ turns) : popRemaining layout turns queue = (order, final) := by
  induction pops generalizing turns with
  | nil queue =>
      cases turns with
      | zero => rfl
      | succ turns => rw [popRemaining, PriorityQueue.pop_eq_none.mpr emptied]
  | cons step later induction =>
      have restLen := len_pop step
      cases turns with
      | zero => omega
      | succ turns =>
          rw [popRemaining, step]
          dsimp only
          rw [induction emptied (by omega)]

theorem popOrder_pops (layout : QueueLayout) (queue : BatchQueue) :
    ∃ final, PriorityQueue.Pops layout queue (popOrder layout queue) final ∧
      final.entries = [] := by
  obtain ⟨popped, final, equation, pops, emptied⟩ :=
    popRemaining_spec layout (Nat.le_refl queue.len)
  refine ⟨final, ?_, emptied⟩
  rw [popOrder, equation]
  exact pops

/-- The first loop leaves the longest suffix at which it stops. -/
theorem removeEntries_eq (limits : ExtractionLimits) {final : BatchQueue}
    {order : List QueuedEntry} {turns : Nat} (pops : PriorityQueue.Pops layout queue order final)
    (emptied : final.entries = []) (enough : queue.len ≤ turns) (rejected : List QueuedEntry) :
    ∃ viable rejected', removeEntries layout limits turns queue (calculateBatchSize queue)
        rejected = (viable, rejected') ∧
      PriorityQueue.Pops layout viable (longestSuffix (stopsAt limits) order) final := by
  induction pops generalizing turns rejected with
  | nil queue =>
      refine ⟨queue, rejected, ?_, .nil queue⟩
      cases turns with
      | zero => rfl
      | succ turns => rw [removeEntries, PriorityQueue.pop_eq_none.mpr emptied]
  | @cons queue middle final top popped step later induction =>
      have restLen := len_pop step
      have whole := PriorityQueue.Pops.cons step later
      have perm : queue.entries.Perm (top :: popped) := by
        simpa [emptied] using whole.perm
      have test : stopsAt limits (top :: popped) =
          !shouldRemove limits queue.len (calculateBatchSize queue) top.1 := by
        rw [stopsAt, ← len_of_pops whole emptied, calculateBatchSize_of_perm perm]
      cases turns with
      | zero => omega
      | succ turns =>
          rw [removeEntries, step, longestSuffix, test]
          dsimp only
          cases removed : shouldRemove limits queue.len (calculateBatchSize queue) top.1 with
          | true =>
              rw [calculateBatchSize_pop step]
              exact induction emptied (by omega) (rejected ++ [top])
          | false => exact ⟨queue, rejected, rfl, whole⟩

/-- The result is the longest suffix at which the loop stops. -/
theorem extractBatchDirectly_eq (layout : QueueLayout) (limits : ExtractionLimits)
    (queue : BatchQueue) :
    (extractBatchDirectly layout limits queue).1 =
      if longestSuffix (stopsAt limits) (popOrder layout queue) = [] then
        .error .batchCostTooHigh
      else
        .ok ((longestSuffix (stopsAt limits) (popOrder layout queue)).map Prod.fst) := by
  obtain ⟨final, pops, emptied⟩ := popOrder_pops layout queue
  obtain ⟨viable, rejected, removed, left⟩ :=
    removeEntries_eq limits pops emptied (Nat.le_refl queue.len) []
  have perm : viable.entries.Perm (longestSuffix (stopsAt limits) (popOrder layout queue)) := by
    simpa [emptied] using left.perm
  rw [extractBatchDirectly, removed]
  dsimp only
  rw [popRemaining_eq left emptied (Nat.le_refl _)]
  by_cases nothing : longestSuffix (stopsAt limits) (popOrder layout queue) = []
  · have empty : viable.entries = [] := by
      rw [nothing] at perm
      exact perm.eq_nil
    simp [empty, nothing]
  · have some : viable.entries ≠ [] := by
      intro empty
      rw [empty] at perm
      exact nothing perm.symm.eq_nil
    simp [some, nothing]

/-! ## What is conserved -/

theorem mem_queue_of_mem_taken {rest : BatchQueue} {batch : List BatchQueueEntry}
    (extracted : Extracted limits queue batch rest) {entry : QueuedEntry}
    (member : entry ∈ extracted.taken) : entry ∈ queue.entries :=
  extracted.perm.mem_iff.mpr (List.mem_append_left _ member)

theorem taken_eq (own : OwnPriorities queue) {rest : BatchQueue} {batch : List BatchQueueEntry}
    (extracted : Extracted limits queue batch rest) :
    extracted.taken = batch.map fun entry => (entry, entry.priority) := by
  apply Eq.trans ?_ (congrArg (List.map fun entry => (entry, entry.priority))
    extracted.batch_eq).symm
  rw [List.map_map]
  symm
  calc
    extracted.taken.map ((fun entry => (entry, entry.priority)) ∘ Prod.fst) =
        extracted.taken.map id := by
      apply List.map_congr_left
      intro entry member
      have priority := own entry (mem_queue_of_mem_taken extracted member)
      rw [Function.comp_apply, ← priority]
      rfl
    _ = extracted.taken := List.map_id _

/-- An extraction moves entries into a batch that respects every limit, and
leaves no entry behind that offers more than one of the batch.  Without a
batch the queue stays as it is. -/
theorem extractBatchDirectly_lossless (layout : QueueLayout) (limits : ExtractionLimits)
    (queue : BatchQueue) (own : OwnPriorities queue) :
    removeEntriesChecked layout limits queue.len queue (calculateBatchSize queue) [] =
      some (removeEntries layout limits queue.len queue (calculateBatchSize queue) []) ∧
    (∀ batch rest, extractBatchDirectly layout limits queue = (.ok batch, rest) →
      batch ≠ [] ∧
      queue.entries.Perm ((batch.map fun entry => (entry, entry.priority)) ++ rest.entries) ∧
      batch.length ≤ limits.maxBatchProofQty ∧
      cborArrayMaxOverhead + (batch.map BatchQueueEntry.cborSizeUpperBound).sum ≤
        limits.maxBatchByteSize ∧
      (∀ entry ∈ batch, calculateFeePerProof batch.length limits.gasPrice
        limits.constantGasCost ≤ entry.maxFee) ∧
      ∀ left ∈ rest.items, ∀ entry ∈ batch, left.maxFee ≤ entry.maxFee) ∧
    ∀ error rest, extractBatchDirectly layout limits queue = (.error error, rest) →
      rest.entries.Perm queue.entries := by
  refine ⟨removeEntriesChecked_eq _ _, ?_, ?_⟩
  · intro batch rest extraction
    obtain ⟨extracted⟩ := extracted_of_ok extraction
    have perm := extracted.perm
    rw [taken_eq own extracted] at perm
    refine ⟨extracted.ne_nil, perm, extracted.length_le, extracted.size_le,
      extracted.fee_le_maxFee own, ?_⟩
    intro left leftMember entry member
    obtain ⟨stays, staysMember, rfl⟩ := List.mem_map.mp leftMember
    rw [extracted.batch_eq] at member
    obtain ⟨leaves, leavesMember, rfl⟩ := List.mem_map.mp member
    have order := extracted.separated leaves leavesMember stays staysMember
    rw [own leaves (mem_queue_of_mem_taken extracted leavesMember),
      own stays (extracted.perm.mem_iff.mpr (List.mem_append_right _ staysMember)),
      BatchQueueEntry.priority_le_iff] at order
    omega
  · intro error rest extraction
    exact perm_of_error extraction

namespace Sample

/-- Two users offer the same fee for the same nonce, the second for a larger proof. -/
def largerProof : BatchQueueEntry :=
  { entry 2 0 1000000 with
    noncedVerificationData :=
      { noncedVerificationData 0 1000000 with
        verificationData := { verificationData with proof := [1, 2, 3] } } }

def tiedQueue : BatchQueue :=
  (PriorityQueue.empty.push (entry 1 0 1000000) ⟨1000000, 0⟩).push largerProof ⟨1000000, 0⟩

/-- Limits that only a batch of the smaller proof respects. -/
def smallLimits : ExtractionLimits :=
  { gasPrice := 1
    maxBatchByteSize := 1035
    maxBatchProofQty := 10
    constantGasCost := 1000 }

end Sample

theorem extractBatchDirectly_lossless_tied :
    ∃ batch rest, extractBatchDirectly (Layout.insertion _)
        { Sample.smallLimits with maxBatchByteSize := 4096 } Sample.tiedQueue = (.ok batch, rest) ∧
      batch ≠ [] ∧
      Sample.tiedQueue.entries.Perm
        ((batch.map fun entry => (entry, entry.priority)) ++ rest.entries) := by
  obtain ⟨-, succeeded, -⟩ := extractBatchDirectly_lossless (Layout.insertion _)
    { Sample.smallLimits with maxBatchByteSize := 4096 } Sample.tiedQueue
    (by unfold OwnPriorities; decide)
  obtain ⟨nonempty, perm, -⟩ := succeeded _ _ rfl
  exact ⟨_, _, rfl, nonempty, perm⟩

/-! ## The largest acceptable batch -/

theorem stopsAt_iff {top : QueuedEntry} {rest : List QueuedEntry}
    (own : ∀ entry ∈ top :: rest, entry.2 = entry.1.priority)
    (sorted : (top :: rest).Pairwise fun first second => second.2 ≤ first.2) :
    stopsAt limits (top :: rest) = true ↔ Acceptable limits ((top :: rest).map Prod.fst) := by
  have lowest : ∀ entry ∈ top :: rest, top.1.maxFee ≤ entry.1.maxFee := by
    intro entry member
    rcases List.mem_cons.mp member with rfl | later
    · exact Nat.le_refl _
    · have order := (List.pairwise_cons.mp sorted).1 entry later
      rw [own entry member, own top List.mem_cons_self, BatchQueueEntry.priority_le_iff] at order
      omega
  simp only [stopsAt, shouldRemove, Bool.not_eq_true', Bool.or_eq_false_iff,
    decide_eq_false_iff_not, Nat.not_lt, gt_iff_lt]
  constructor
  · rintro ⟨⟨size, fee⟩, length⟩
    constructor
    · rwa [List.length_map]
    · exact size
    · intro entry member
      obtain ⟨stored, storedMember, rfl⟩ := List.mem_map.mp member
      rw [List.length_map]
      exact fee.trans (lowest stored storedMember)
  · intro acceptable
    have length := acceptable.length_le
    have fee := acceptable.fee_le top.1 (List.mem_map_of_mem List.mem_cons_self)
    rw [List.length_map] at length fee
    exact ⟨⟨acceptable.size_le, fee⟩, length⟩

theorem popOrder_perm (layout : QueueLayout) (queue : BatchQueue) :
    queue.entries.Perm (popOrder layout queue) := by
  obtain ⟨final, pops, emptied⟩ := popOrder_pops layout queue
  simpa [emptied] using pops.perm

theorem popOrder_pairwise (layout : QueueLayout) (queue : BatchQueue) :
    (popOrder layout queue).Pairwise fun first second => second.2 ≤ first.2 := by
  obtain ⟨final, pops, -⟩ := popOrder_pops layout queue
  exact pops.pairwise

/-- The entries of a queue from the first to be dropped to the last. -/
def dropOrder (layout : QueueLayout) (queue : BatchQueue) : List BatchQueueEntry :=
  (popOrder layout queue).map Prod.fst

theorem dropOrder_pairwise (layout : QueueLayout) (own : OwnPriorities queue) :
    (dropOrder layout queue).Pairwise fun first second => second.priority ≤ first.priority := by
  rw [dropOrder, List.pairwise_map]
  apply (popOrder_pairwise layout queue).imp_of_mem
  intro first second firstMember secondMember order
  rwa [own first ((popOrder_perm layout queue).mem_iff.mpr firstMember),
    own second ((popOrder_perm layout queue).mem_iff.mpr secondMember)] at order

theorem lastEntries_dropOrder (layout : QueueLayout) (queue : BatchQueue) (count : Nat) :
    lastEntries count (dropOrder layout queue) =
      (lastEntries count (popOrder layout queue)).map Prod.fst := by
  rw [lastEntries, lastEntries, dropOrder, List.length_map, List.map_drop]

/-- The loop stops at a suffix if and only if it is an acceptable batch. -/
theorem stopsAt_suffix_iff (own : OwnPriorities queue) {suffix : List QueuedEntry}
    (isSuffix : suffix <:+ popOrder layout queue) (nonempty : suffix ≠ []) :
    stopsAt limits suffix = true ↔ Acceptable limits (suffix.map Prod.fst) := by
  cases suffix with
  | nil => exact absurd rfl nonempty
  | cons top rest =>
      apply stopsAt_iff
      · intro entry member
        exact own entry ((popOrder_perm layout queue).mem_iff.mpr (isSuffix.subset member))
      · exact (popOrder_pairwise layout queue).sublist isSuffix.sublist

/-- An acceptable number of entries does not exceed the number the loop finds. -/
theorem le_of_acceptable (own : OwnPriorities queue) {count : Nat} (positive : 1 ≤ count)
    (bound : count ≤ (dropOrder layout queue).length)
    (acceptable : Acceptable limits (lastEntries count (dropOrder layout queue))) :
    count ≤ (longestSuffix (stopsAt limits) (popOrder layout queue)).length := by
  rw [dropOrder, List.length_map] at bound
  rw [lastEntries_dropOrder] at acceptable
  have length := length_lastEntries bound
  have nonempty : lastEntries count (popOrder layout queue) ≠ [] := by
    apply List.ne_nil_of_length_pos
    omega
  have stops := (stopsAt_suffix_iff own (lastEntries_suffix count) nonempty).mpr acceptable
  have longest := length_le_longestSuffix (lastEntries_suffix count) nonempty stops
  omega

/-- Within the byte limit, a subset that could be a batch is no larger than
the entries of the same number that pay most. -/
theorem acceptable_of_subset (layout : QueueLayout) (own : OwnPriorities queue)
    (fits : calculateBatchSize queue ≤ limits.maxBatchByteSize) {subset : List BatchQueueEntry}
    (isSubset : subset.Subperm queue.items) (few : subset.length ≤ limits.maxBatchProofQty)
    (pays : ∀ entry ∈ subset, calculateFeePerProof subset.length limits.gasPrice
      limits.constantGasCost ≤ entry.maxFee) :
    subset.length ≤ (dropOrder layout queue).length ∧
      Acceptable limits (lastEntries subset.length (dropOrder layout queue)) := by
  have perm : queue.items.Perm (dropOrder layout queue) := (popOrder_perm layout queue).map _
  have inOrder : subset.Subperm (dropOrder layout queue) := isSubset.trans perm.subperm
  have bound := inOrder.length_le
  refine ⟨bound, ?_⟩
  have length := length_lastEntries bound
  constructor
  · rwa [length]
  · have isSuffix : lastEntries subset.length (dropOrder layout queue) <:+
        dropOrder layout queue := lastEntries_suffix subset.length
    have part := (isSuffix.sublist.map BatchQueueEntry.cborSizeUpperBound).sum_le_sum
      (fun _ _ => Nat.zero_le _)
    have whole : calculateBatchSize queue = cborArrayMaxOverhead +
        ((dropOrder layout queue).map BatchQueueEntry.cborSizeUpperBound).sum :=
      calculateBatchSize_of_perm (popOrder_perm layout queue)
    omega
  · rw [length]
    apply of_mem_lastEntries
    · apply (dropOrder_pairwise layout own).imp
      intro first second order covered
      rw [BatchQueueEntry.priority_le_iff] at order
      omega
    · calc
        subset.length = subset.countP fun entry => calculateFeePerProof subset.length
            limits.gasPrice limits.constantGasCost ≤ entry.maxFee := by
          symm
          rw [List.countP_eq_length]
          simpa using pays
        _ ≤ (dropOrder layout queue).countP fun entry => calculateFeePerProof subset.length
            limits.gasPrice limits.constantGasCost ≤ entry.maxFee := inOrder.countP_le _

/-- How many entries the result has. -/
def extractedLength (result : Except BatcherError (List BatchQueueEntry)) : Nat :=
  match result with
  | .ok batch => batch.length
  | .error _ => 0

theorem extractedLength_eq (layout : QueueLayout) (limits : ExtractionLimits)
    (queue : BatchQueue) :
    extractedLength (extractBatchDirectly layout limits queue).1 =
      (longestSuffix (stopsAt limits) (popOrder layout queue)).length := by
  rw [extractBatchDirectly_eq]
  split
  case isTrue nothing => rw [nothing]; rfl
  case isFalse => rw [extractedLength, List.length_map]

/-- The batch consists of the last entries in the order of dropping, as many
as are acceptable, and there is none if no number is.  Without the byte limit
in the way no subset of the queue makes a larger batch. -/
theorem extractBatchDirectly_maximal (layout : QueueLayout) (limits : ExtractionLimits)
    (queue : BatchQueue) (own : OwnPriorities queue) :
    queue.items.Perm (dropOrder layout queue) ∧
    ((dropOrder layout queue).Pairwise fun first second => second.priority ≤ first.priority) ∧
    (∀ batch rest, extractBatchDirectly layout limits queue = (.ok batch, rest) →
      batch = lastEntries batch.length (dropOrder layout queue) ∧
      IsGreatest {count | 1 ≤ count ∧ count ≤ (dropOrder layout queue).length ∧
        Acceptable limits (lastEntries count (dropOrder layout queue))} batch.length) ∧
    ((∃ error rest, extractBatchDirectly layout limits queue = (.error error, rest)) ↔
      ∀ count, 1 ≤ count → count ≤ (dropOrder layout queue).length →
        ¬ Acceptable limits (lastEntries count (dropOrder layout queue))) ∧
    (calculateBatchSize queue ≤ limits.maxBatchByteSize →
      ∀ subset : List BatchQueueEntry, subset.Subperm queue.items →
        subset.length ≤ limits.maxBatchProofQty →
        (∀ entry ∈ subset, calculateFeePerProof subset.length limits.gasPrice
          limits.constantGasCost ≤ entry.maxFee) →
        subset.length ≤ extractedLength (extractBatchDirectly layout limits queue).1) := by
  have result := extractBatchDirectly_eq layout limits queue
  have isSuffix : longestSuffix (stopsAt limits) (popOrder layout queue) <:+
      popOrder layout queue := longestSuffix_suffix
  have largest : ∀ {count}, 1 ≤ count → count ≤ (dropOrder layout queue).length →
      Acceptable limits (lastEntries count (dropOrder layout queue)) →
      count ≤ (longestSuffix (stopsAt limits) (popOrder layout queue)).length :=
    fun atLeastOne bound acceptable => le_of_acceptable own atLeastOne bound acceptable
  refine ⟨(popOrder_perm layout queue).map _, dropOrder_pairwise layout own, ?_, ?_, ?_⟩
  · intro batch rest extraction
    rw [extraction] at result
    split at result
    case isTrue => cases result
    case isFalse nonempty =>
      rw [Except.ok.injEq] at result
      have length : batch.length =
          (longestSuffix (stopsAt limits) (popOrder layout queue)).length := by
        rw [result, List.length_map]
      have positive := List.length_pos_iff.mpr nonempty
      have whole : batch = lastEntries batch.length (dropOrder layout queue) := by
        rw [lastEntries_dropOrder, length, ← eq_lastEntries isSuffix]
        exact result
      have acceptable := (stopsAt_suffix_iff own isSuffix nonempty).mp
        (longestSuffix_passes nonempty)
      refine ⟨whole, ⟨by omega, ?_, ?_⟩, ?_⟩
      · rw [dropOrder, List.length_map, length]
        exact isSuffix.length_le
      · rw [← whole, result]
        exact acceptable
      · rintro count ⟨atLeastOne, bound, acceptable⟩
        rw [length]
        exact largest atLeastOne bound acceptable
  · constructor
    · rintro ⟨error, rest, extraction⟩ count atLeastOne bound acceptable
      have found := largest atLeastOne bound acceptable
      rw [extraction] at result
      split at result
      case isTrue nothing =>
        rw [nothing] at found
        exact absurd atLeastOne (Nat.not_le.mpr (Nat.lt_succ_of_le found))
      case isFalse => cases result
    · intro none
      by_cases nothing : longestSuffix (stopsAt limits) (popOrder layout queue) = []
      · rw [if_pos nothing] at result
        exact ⟨_, _, Prod.ext result rfl⟩
      · have acceptable := (stopsAt_suffix_iff own isSuffix nothing).mp
          (longestSuffix_passes nothing)
        rw [eq_lastEntries isSuffix, ← lastEntries_dropOrder] at acceptable
        apply absurd acceptable
        apply none
        · exact List.length_pos_iff.mpr nothing
        · rw [dropOrder, List.length_map]
          exact isSuffix.length_le
  · intro fits subset isSubset few pays
    rw [extractedLength_eq]
    obtain ⟨bound, acceptable⟩ := acceptable_of_subset layout own fits isSubset few pays
    rcases Nat.eq_zero_or_pos subset.length with zero | positive
    · omega
    · exact largest positive bound acceptable

theorem extractBatchDirectly_maximal_tied :
    (∃ error rest, extractBatchDirectly (Layout.insertion _) Sample.smallLimits
        Sample.tiedQueue = (.error error, rest)) ↔
      ∀ count, 1 ≤ count →
        count ≤ (dropOrder (Layout.insertion _) Sample.tiedQueue).length →
        ¬ Acceptable Sample.smallLimits
          (lastEntries count (dropOrder (Layout.insertion _) Sample.tiedQueue)) :=
  (extractBatchDirectly_maximal (Layout.insertion _) Sample.smallLimits Sample.tiedQueue
    (by unfold OwnPriorities; decide)).2.2.2.1

/-- Of two entries of the same priority the queue may drop the one that alone
would have been an acceptable batch. -/
theorem acceptable_entry_dropped :
    (∀ entry ∈ Sample.tiedQueue.items, entry.priority ≤ (Sample.entry 1 0 1000000).priority) ∧
      (∀ entry ∈ Sample.tiedQueue.items, (Sample.entry 1 0 1000000).priority ≤ entry.priority) ∧
      Sample.entry 1 0 1000000 ∈ Sample.tiedQueue.items ∧
      Acceptable Sample.smallLimits [Sample.entry 1 0 1000000] ∧
      (extractBatchDirectly (Layout.insertion _) Sample.smallLimits Sample.tiedQueue).1 =
        .error .batchCostTooHigh := by
  refine ⟨by decide, by decide, by decide, ⟨by decide, by decide, by decide⟩, by rfl⟩

end AlignedLayer
