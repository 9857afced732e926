import AlignedLayer.Batcher.Cover

/-!
# What a restoration leaves

`restore_proofs_after_batch_failure` puts entries back as long as the queue
has room and recomputes the counters of their users.  It waits for ever when
an entry outbids the lowest one of a full queue, drops the others, and never
looks at the nonces and fees of what has come into the queue meanwhile.
-/

namespace AlignedLayer

/-! ## The state of a user and its entries -/

/-- The nonce that follows the entries. -/
def nextNonce (onChainNonce : Nat) (entries : List BatchQueueEntry) : Nat :=
  match (entries.map BatchQueueEntry.nonce).max? with
  | some highest => highest + 1
  | none => onChainNonce

/-- There is no gap between the nonces, and no later one pays more. -/
structure InNonceOrder (entries : List BatchQueueEntry) : Prop where
  contiguous : ∀ low ∈ entries, ∀ high ∈ entries, ∀ nonce, low.nonce ≤ nonce →
    nonce ≤ high.nonce → ∃ entry ∈ entries, entry.nonce = nonce
  fees : ∀ low ∈ entries, ∀ high ∈ entries, low.nonce < high.nonce → high.maxFee ≤ low.maxFee

theorem nextNonce_perm {left right : List BatchQueueEntry} (permutation : left.Perm right)
    (onChainNonce : Nat) : nextNonce onChainNonce left = nextNonce onChainNonce right := by
  have same : (left.map BatchQueueEntry.nonce).max? = (right.map BatchQueueEntry.nonce).max? := by
    cases highest : (right.map BatchQueueEntry.nonce).max? with
    | none =>
        rw [List.max?_eq_none_iff, List.map_eq_nil_iff] at highest ⊢
        subst highest
        exact permutation.eq_nil
    | some nonce =>
        rw [List.max?_eq_some_iff] at highest ⊢
        have members : ∀ other, other ∈ left.map BatchQueueEntry.nonce ↔
            other ∈ right.map BatchQueueEntry.nonce :=
          fun other => (permutation.map BatchQueueEntry.nonce).mem_iff
        exact ⟨(members nonce).mpr highest.1,
          fun other member => highest.2 other ((members other).mp member)⟩
  rw [nextNonce, nextNonce, same]

theorem InNonceOrder.perm {left right : List BatchQueueEntry} (ordered : InNonceOrder left)
    (permutation : left.Perm right) : InNonceOrder right where
  contiguous low lowMember high highMember nonce above below := by
    obtain ⟨entry, member, same⟩ := ordered.contiguous low (permutation.mem_iff.mpr lowMember)
      high (permutation.mem_iff.mpr highMember) nonce above below
    exact ⟨entry, permutation.mem_iff.mp member, same⟩
  fees low lowMember high highMember :=
    ordered.fees low (permutation.mem_iff.mpr lowMember) high (permutation.mem_iff.mpr highMember)

/-- The counters of the user are those of its entries. -/
structure UserState.Counts (queue : BatchQueue) (address : Address) (state : UserState) :
    Prop where
  proofsInBatch : state.proofsInBatch = (queue.entriesOf address).length
  totalFeesInQueue : state.totalFeesInQueue =
    ((queue.entriesOf address).map BatchQueueEntry.maxFee).sum
  lastMaxFeeLimit : state.lastMaxFeeLimit = BatchState.getUserMinFeeInBatch queue address

namespace Shared

def onChainNonce (shared : Shared) (address : Address) : Nat :=
  (shared.chain.paymentService.userData address).nonce

/-- The cached state of a user fits its queued entries. -/
structure UserFits (shared : Shared) (address : Address) : Prop where
  present : shared.batchQueue.entriesOf address ≠ [] → shared.userStates address ≠ none
  nonce : ∀ ref, shared.userStates address = some ref →
    (shared.cells ref).nonce =
      nextNonce (shared.onChainNonce address) (shared.batchQueue.entriesOf address)
  ordered : InNonceOrder (shared.batchQueue.entriesOf address)
  counts : ∀ ref, shared.userStates address = some ref →
    (shared.cells ref).Counts shared.batchQueue address

section Restore

variable (layout : QueueLayout) (maxQueueSize : Nat)

/-- `update_user_states_from_queue_state`, user after user. -/
def updateUsers (users : List Address) (shared : Shared) : Shared :=
  users.foldl (fun shared address => shared.updateUser layout address) shared

/-- `restore_proofs_after_batch_failure`, with the update of the users of the
restored entries. -/
def restoreProofsAfterBatchFailure (batch : InFlight) (shared : Shared) : Option Shared :=
  (shared.restore layout maxQueueSize batch).map fun restored =>
    match restored.batch with
    | some (_, .restored users) => restored.updateUsers layout users
    | _ => restored

/-- Every user of the failed batch or of the queue fits afterwards. -/
def RestoresUsers (batch : InFlight) (shared : Shared) : Prop :=
  ∃ restored, shared.restoreProofsAfterBatchFailure layout maxQueueSize batch = some restored ∧
    ∀ address ∈ sendersOf (batch.entries ++ shared.batchQueue.items), restored.UserFits address

end Restore

/-! ## The condition on the state before -/

/-- The entries that are put back before the queue is full. -/
def placed (maxQueueSize : Nat) : List BatchQueueEntry → BatchQueue → List BatchQueueEntry
  | [], _ => []
  | entry :: rest, queue =>
      if BatchState.isQueueFull maxQueueSize queue && !queue.entries.isEmpty then []
      else entry :: placed maxQueueSize rest (queue.push entry entry.priority)

/-- The queue with these entries. -/
def queueWith (entries : List BatchQueueEntry) (queue : BatchQueue) : BatchQueue :=
  queue.pushAll (entries.map fun entry => (entry, entry.priority))

/-- Nobody is outbid, and the states of the users already fit the queue with
the entries that are put back. -/
structure Restorable (layout : QueueLayout) (maxQueueSize : Nat) (batch : InFlight)
    (shared : Shared) (put : List BatchQueueEntry) : Prop where
  nobodyOutbid : ∀ entry ∈ batch.entries.drop put.length,
    ∀ lowest ∈ (queueWith put shared.batchQueue).peek layout, entry.maxFee ≤ lowest.1.maxFee
  present : ∀ entry ∈ put ++ shared.batchQueue.items, shared.userStates entry.sender ≠ none
  nonce : ∀ address ∈ sendersOf (batch.entries ++ shared.batchQueue.items),
    ∀ ref, shared.userStates address = some ref →
      (shared.cells ref).nonce = nextNonce (shared.onChainNonce address)
        ((queueWith put shared.batchQueue).entriesOf address)
  ordered : ∀ address ∈ sendersOf (batch.entries ++ shared.batchQueue.items),
    InNonceOrder ((queueWith put shared.batchQueue).entriesOf address)
  /-- The counters of a user of whom nothing is put back stay as they are. -/
  counts : ∀ address ∈ sendersOf (batch.entries ++ shared.batchQueue.items),
    address ∉ sendersOf put → ∀ ref, shared.userStates address = some ref →
      (shared.cells ref).Counts shared.batchQueue address

/-! ## The loop -/

theorem queueWith_cons (entry : BatchQueueEntry) (rest : List BatchQueueEntry)
    (queue : BatchQueue) :
    queueWith (entry :: rest) queue = queueWith rest (queue.push entry entry.priority) := by
  simp [queueWith, PriorityQueue.pushAll]

theorem placed_of_full {maxQueueSize : Nat} {queue : BatchQueue}
    (full : (BatchState.isQueueFull maxQueueSize queue && !queue.entries.isEmpty) = true)
    (entries : List BatchQueueEntry) : placed maxQueueSize entries queue = [] := by
  cases entries with
  | nil => rfl
  | cons entry rest => rw [placed, if_pos full]

theorem restoreEntries_of_place {layout : QueueLayout} {maxQueueSize : Nat}
    {entry : BatchQueueEntry} {rest restoredEntries : List BatchQueueEntry} {queue : BatchQueue}
    (place : ¬ (BatchState.isQueueFull maxQueueSize queue && !queue.entries.isEmpty) = true) :
    restoreEntries layout maxQueueSize (entry :: rest) restoredEntries queue =
      restoreEntries layout maxQueueSize rest (restoredEntries ++ [entry])
        (queue.push entry entry.priority) := by
  rw [restoreEntries]
  split
  · rename_i full
    have empty : queue.entries = [] := by
      by_contra nonempty
      apply place
      rw [full, Bool.true_and]
      simpa using nonempty
    rw [PriorityQueue.peek_eq_none.mpr empty]
  · rfl

/-- What the loop puts back, and when it waits for ever. -/
theorem restoreEntries_eq_some_iff {layout : QueueLayout} {maxQueueSize : Nat}
    {entries restoredEntries restored : List BatchQueueEntry} {queue final : BatchQueue} :
    restoreEntries layout maxQueueSize entries restoredEntries queue = some (final, restored) ↔
      (final = queueWith (placed maxQueueSize entries queue) queue ∧
        restored = restoredEntries ++ placed maxQueueSize entries queue) ∧
      ∀ entry ∈ entries.drop (placed maxQueueSize entries queue).length,
        ∀ lowest ∈ (queueWith (placed maxQueueSize entries queue) queue).peek layout,
          entry.maxFee ≤ lowest.1.maxFee := by
  induction entries generalizing restoredEntries queue with
  | nil =>
      simp [restoreEntries, placed, queueWith, PriorityQueue.pushAll, eq_comm]
  | cons entry rest induction =>
      by_cases full : (BatchState.isQueueFull maxQueueSize queue && !queue.entries.isEmpty) = true
      · obtain ⟨isFull, nonempty⟩ := Bool.and_eq_true_iff.mp full
        obtain ⟨lowest, peeked⟩ : ∃ lowest, queue.peek layout = some lowest := by
          apply Option.ne_none_iff_exists'.mp
          intro nothing
          rw [PriorityQueue.peek_eq_none.mp nothing] at nonempty
          cases nonempty
        have others := @induction restoredEntries queue
        have same : queueWith [] queue = queue := rfl
        rw [placed_of_full full, same, peeked] at others ⊢
        rw [restoreEntries, if_pos isFull, peeked]
        dsimp only
        by_cases outbids : entry.maxFee > lowest.1.maxFee
        · rw [if_pos outbids]
          constructor
          · intro impossible
            cases impossible
          · rintro ⟨-, bounded⟩
            have bound := bounded entry List.mem_cons_self lowest rfl
            omega
        · rw [if_neg outbids, others]
          simp only [List.length_nil, List.drop_zero, List.forall_mem_cons]
          constructor
          · rintro ⟨ends, bounded⟩
            refine ⟨ends, ?_, bounded⟩
            rintro other ⟨⟩
            omega
          · rintro ⟨ends, -, bounded⟩
            exact ⟨ends, bounded⟩
      · rw [restoreEntries_of_place full, induction, placed, if_neg full, queueWith_cons,
          List.length_cons, List.drop_succ_cons, List.append_assoc, List.singleton_append]

/-! ## The entries of a user -/

theorem mem_sendersOf {entries : List BatchQueueEntry} {address : Address} :
    address ∈ sendersOf entries ↔ ∃ entry ∈ entries, entry.sender = address := by
  rw [sendersOf, List.mem_dedup, List.mem_map]

theorem placed_subset (maxQueueSize : Nat) (entries : List BatchQueueEntry)
    (queue : BatchQueue) : placed maxQueueSize entries queue ⊆ entries := by
  induction entries generalizing queue with
  | nil => exact List.nil_subset _
  | cons entry rest induction =>
      rw [placed]
      split
      · exact List.nil_subset _
      · exact List.cons_subset_cons entry (induction _)

/-- The senders of a queue after a push, also when the key is queued. -/
theorem exists_entriesOf_push {queue : BatchQueue} {entry : BatchQueueEntry}
    {priority : BatchQueueEntryPriority} {address : Address} :
    (∃ other, other ∈ BatchQueue.entriesOf (queue.push entry priority) address) ↔
      entry.sender = address ∨ ∃ other, other ∈ queue.entriesOf address := by
  simp only [mem_entriesOf]
  by_cases queued : entry.key ∈ queue.items.map BatchQueueEntry.key
  · rw [items_push_of_queued queued]
    constructor
    · exact .inr
    · rintro (rfl | found)
      · obtain ⟨stored, member, same⟩ := List.mem_map.mp queued
        exact ⟨stored, member, congrArg Prod.fst same⟩
      · exact found
  · constructor
    · rintro ⟨other, member, sender⟩
      rcases List.mem_cons.mp ((items_push_perm queued).mem_iff.mp member) with rfl | before
      · exact .inl sender
      · exact .inr ⟨other, before, sender⟩
    · rintro (sender | ⟨other, member, sender⟩)
      · exact ⟨entry, (items_push_perm queued).mem_iff.mpr List.mem_cons_self, sender⟩
      · exact ⟨other, (items_push_perm queued).mem_iff.mpr (List.mem_cons_of_mem _ member), sender⟩

theorem exists_entriesOf_queueWith {entries : List BatchQueueEntry} {queue : BatchQueue}
    {address : Address} :
    (queueWith entries queue).entriesOf address ≠ [] ↔
      ∃ entry ∈ entries ++ queue.items, entry.sender = address := by
  rw [Ne, List.eq_nil_iff_forall_not_mem, not_forall_not]
  induction entries generalizing queue with
  | nil =>
      have same : queueWith [] queue = queue := rfl
      simp only [same, mem_entriesOf, List.nil_append]
  | cons entry rest induction =>
      rw [queueWith_cons, induction]
      have pushed := @exists_entriesOf_push queue entry entry.priority address
      simp only [mem_entriesOf] at pushed
      simp only [List.mem_append, List.mem_cons, List.cons_append, or_and_right, exists_or,
        exists_eq_left, pushed]
      exact or_left_comm

theorem entriesOf_queueWith_of_absent {entries : List BatchQueueEntry} {address : Address}
    (absent : address ∉ sendersOf entries) (queue : BatchQueue) :
    (queueWith entries queue).entriesOf address = queue.entriesOf address := by
  induction entries generalizing queue with
  | nil => rfl
  | cons entry rest induction =>
      have different : entry.sender ≠ address := by
        intro same
        exact absent (mem_sendersOf.mpr ⟨entry, List.mem_cons_self, same⟩)
      have others : address ∉ sendersOf rest := by
        intro found
        obtain ⟨other, member, same⟩ := mem_sendersOf.mp found
        exact absent (mem_sendersOf.mpr ⟨other, List.mem_cons_of_mem _ member, same⟩)
      rw [queueWith_cons, induction others, BatchQueue.entriesOf, BatchQueue.entriesOf]
      by_cases queued : entry.key ∈ queue.items.map BatchQueueEntry.key
      · rw [items_push_of_queued queued]
      · have pushed : (queue.push entry entry.priority).items = queue.items ++ [entry] := by
          rw [PriorityQueue.items, PriorityQueue.push_of_absent]
          · simp [PriorityQueue.items]
          · intro other member same
            exact queued (List.mem_map.mpr ⟨other.1, List.mem_map_of_mem member, same⟩)
        rw [pushed, List.filter_append, List.filter_singleton, decide_eq_false different]
        exact List.append_nil _

/-! ## The update of the users -/

theorem updateUsers_spec {layout : QueueLayout} {users : List Address} {shared : Shared}
    (separate : shared.SeparateUsers) (distinct : users.Nodup) :
    ∃ cells, shared.updateUsers layout users = { shared with cells := cells } ∧
      ∀ address ref, shared.userStates address = some ref →
        cells ref =
          if address ∈ users then
            (shared.cells ref).updateFromQueue layout shared.batchQueue address
          else
            shared.cells ref := by
  induction users generalizing shared with
  | nil => exact ⟨shared.cells, rfl, fun address ref found => by simp⟩
  | cons user rest induction =>
      obtain ⟨notLater, distinctRest⟩ := List.nodup_cons.mp distinct
      have step : shared.updateUsers layout (user :: rest) =
          (shared.updateUser layout user).updateUsers layout rest := rfl
      rw [step, updateUser]
      cases own : shared.userStates user with
      | none =>
          obtain ⟨cells, equation, written⟩ := induction separate distinctRest
          refine ⟨cells, equation, ?_⟩
          intro address ref found
          have other : address ≠ user := by
            rintro rfl
            rw [own] at found
            cases found
          rw [written address ref found]
          simp [other]
      | some ownRef =>
          have separateAfter : Shared.SeparateUsers
              { shared with
                cells := Function.update shared.cells ownRef
                  ((shared.cells ownRef).updateFromQueue layout shared.batchQueue user) } :=
            separate
          obtain ⟨cells, equation, written⟩ := induction separateAfter distinctRest
          refine ⟨cells, equation, ?_⟩
          intro address ref found
          rw [written address ref found]
          by_cases same : address = user
          · subst same
            rw [own, Option.some.injEq] at found
            subst found
            simp [notLater]
          · have otherRef : ref ≠ ownRef := by
              rintro rfl
              exact same (separate address user ref found own)
            simp [same, Function.update_of_ne otherRef]

/-- What a restoration that returns leaves. -/
theorem restoreProofsAfterBatchFailure_eq {layout : QueueLayout} {maxQueueSize : Nat}
    {batch : InFlight} {shared restored : Shared} (separate : shared.SeparateUsers)
    (ran : shared.restoreProofsAfterBatchFailure layout maxQueueSize batch = some restored) :
    let put := placed maxQueueSize batch.entries shared.batchQueue
    restored.batchQueue = queueWith put shared.batchQueue ∧
      restored.userStates = shared.userStates ∧ restored.chain = shared.chain ∧
      (∀ address ref, shared.userStates address = some ref →
        restored.cells ref =
          if address ∈ sendersOf put then
            (shared.cells ref).updateFromQueue layout (queueWith put shared.batchQueue) address
          else
            shared.cells ref) ∧
      ∀ entry ∈ batch.entries.drop put.length,
        ∀ lowest ∈ (queueWith put shared.batchQueue).peek layout,
          entry.maxFee ≤ lowest.1.maxFee := by
  intro put
  obtain ⟨middle, moved, rfl⟩ := Option.map_eq_some_iff.mp ran
  obtain ⟨⟨final, restoredEntries⟩, looped, rfl⟩ := Option.map_eq_some_iff.mp moved
  obtain ⟨⟨rfl, rfl⟩, bounded⟩ := restoreEntries_eq_some_iff.mp looped
  obtain ⟨cells, equation, written⟩ := @updateUsers_spec layout (sendersOf put)
    { shared with
      batchQueue := queueWith put shared.batchQueue
      batch := some (batch, .restored (sendersOf put))
      restored := shared.restored ++ [batch.number] }
    separate (List.nodup_dedup _)
  simp only [List.nil_append]
  rw [equation]
  exact ⟨rfl, rfl, rfl, written, bounded⟩

theorem exists_restoreProofsAfterBatchFailure {layout : QueueLayout} {maxQueueSize : Nat}
    {batch : InFlight} {shared : Shared}
    (bounded : ∀ entry ∈ batch.entries.drop
        (placed maxQueueSize batch.entries shared.batchQueue).length,
      ∀ lowest ∈ (queueWith (placed maxQueueSize batch.entries shared.batchQueue)
          shared.batchQueue).peek layout,
        entry.maxFee ≤ lowest.1.maxFee) :
    ∃ restored, shared.restoreProofsAfterBatchFailure layout maxQueueSize batch =
      some restored := by
  have looped : restoreEntries layout maxQueueSize batch.entries [] shared.batchQueue =
      some (_, _) := restoreEntries_eq_some_iff.mpr ⟨⟨rfl, rfl⟩, bounded⟩
  rw [restoreProofsAfterBatchFailure, restore, looped]
  exact ⟨_, rfl⟩

theorem counts_updateFromQueue (layout : QueueLayout) (queue : BatchQueue) (address : Address)
    (state : UserState) : (state.updateFromQueue layout queue address).Counts queue address := by
  rw [UserState.updateFromQueue_eq]
  exact ⟨rfl, rfl, rfl⟩

theorem restorable_of_restoresUsers {layout : QueueLayout} {maxQueueSize : Nat}
    {batch : InFlight} {shared : Shared} (separate : shared.SeparateUsers)
    (restores : shared.RestoresUsers layout maxQueueSize batch) :
    shared.Restorable layout maxQueueSize batch
      (placed maxQueueSize batch.entries shared.batchQueue) := by
  obtain ⟨restored, ran, fits⟩ := restores
  obtain ⟨queue, users, chain, cells, bounded⟩ :=
    restoreProofsAfterBatchFailure_eq separate ran
  have known : ∀ entry ∈ placed maxQueueSize batch.entries shared.batchQueue ++
      shared.batchQueue.items,
      entry.sender ∈ sendersOf (batch.entries ++ shared.batchQueue.items) := by
    intro entry member
    refine mem_sendersOf.mpr ⟨entry, ?_, rfl⟩
    rcases List.mem_append.mp member with inBatch | queued
    · exact List.mem_append_left _ (placed_subset _ _ _ inBatch)
    · exact List.mem_append_right _ queued
  refine ⟨bounded, ?_, ?_, ?_, ?_⟩
  · intro entry member
    have present := (fits entry.sender (known entry member)).present
    rw [queue, users] at present
    exact present (exists_entriesOf_queueWith.mpr ⟨entry, member, rfl⟩)
  · intro address member ref found
    have nonce := (fits address member).nonce ref (users ▸ found)
    rw [cells address ref found, queue, onChainNonce, chain] at nonce
    split at nonce
    · rw [UserState.updateFromQueue_eq] at nonce
      exact nonce
    · exact nonce
  · intro address member
    have ordered := (fits address member).ordered
    rw [queue] at ordered
    exact ordered
  · intro address member absent ref found
    have counts := (fits address member).counts ref (users ▸ found)
    rw [cells address ref found, if_neg absent, queue] at counts
    have same := entriesOf_queueWith_of_absent absent shared.batchQueue
    obtain ⟨counted, summed, limited⟩ := counts
    rw [same] at counted summed
    rw [BatchState.getUserMinFeeInBatch, same] at limited
    exact ⟨counted, summed, limited⟩

theorem restoresUsers_of_restorable {layout : QueueLayout} {maxQueueSize : Nat}
    {batch : InFlight} {shared : Shared} (separate : shared.SeparateUsers)
    (restorable : shared.Restorable layout maxQueueSize batch
      (placed maxQueueSize batch.entries shared.batchQueue)) :
    shared.RestoresUsers layout maxQueueSize batch := by
  obtain ⟨restored, ran⟩ := exists_restoreProofsAfterBatchFailure restorable.nobodyOutbid
  obtain ⟨queue, users, chain, cells, -⟩ := restoreProofsAfterBatchFailure_eq separate ran
  refine ⟨restored, ran, ?_⟩
  intro address member
  constructor
  · intro nonempty
    rw [queue] at nonempty
    obtain ⟨entry, entryMember, rfl⟩ := exists_entriesOf_queueWith.mp nonempty
    rw [users]
    exact restorable.present entry entryMember
  · intro ref found
    rw [users] at found
    have nonce := restorable.nonce address member ref found
    rw [cells address ref found, queue, onChainNonce, chain]
    split
    · rw [UserState.updateFromQueue_eq]
      exact nonce
    · exact nonce
  · rw [queue]
    exact restorable.ordered address member
  · intro ref found
    rw [users] at found
    rw [cells address ref found, queue]
    split
    · exact counts_updateFromQueue layout _ address _
    · rename_i absent
      have counts := restorable.counts address member absent ref found
      have same := entriesOf_queueWith_of_absent absent shared.batchQueue
      refine ⟨?_, ?_, ?_⟩
      · rw [same]
        exact counts.proofsInBatch
      · rw [same]
        exact counts.totalFeesInQueue
      · rw [BatchState.getUserMinFeeInBatch, same]
        exact counts.lastMaxFeeLimit

/-- For every failed batch and every queue, the users fit after the
restoration exactly when nobody is outbid and the states before fit the queue
with the entries that are put back. -/
theorem restoresUsers_iff (layout : QueueLayout) (maxQueueSize : Nat) (batch : InFlight)
    (shared : Shared) (separate : shared.SeparateUsers) :
    shared.RestoresUsers layout maxQueueSize batch ↔
      shared.Restorable layout maxQueueSize batch
        (placed maxQueueSize batch.entries shared.batchQueue) :=
  ⟨restorable_of_restoresUsers separate, restoresUsers_of_restorable separate⟩

/-! ## Room for the whole batch -/

/-- The states describe the queue and the failed batch together, as they do
unless entries were evicted or replaced while the batch was in flight. -/
structure FitsTogether (batch : InFlight) (shared : Shared) : Prop where
  keys : ((batch.entries ++ shared.batchQueue.items).map BatchQueueEntry.key).Nodup
  present : ∀ entry ∈ batch.entries ++ shared.batchQueue.items,
    shared.userStates entry.sender ≠ none
  nonce : ∀ address ref, shared.userStates address = some ref →
    (shared.cells ref).nonce = nextNonce (shared.onChainNonce address)
      ((batch.entries ++ shared.batchQueue.items).filter fun entry => entry.sender = address)
  ordered : ∀ address, InNonceOrder
    ((batch.entries ++ shared.batchQueue.items).filter fun entry => entry.sender = address)
  counts : ∀ address, address ∉ sendersOf batch.entries → ∀ ref,
    shared.userStates address = some ref → (shared.cells ref).Counts shared.batchQueue address

theorem placed_of_room {maxQueueSize : Nat} {entries : List BatchQueueEntry}
    {queue : BatchQueue} (room : queue.len + entries.length ≤ maxQueueSize) :
    placed maxQueueSize entries queue = entries := by
  induction entries generalizing queue with
  | nil => rfl
  | cons entry rest induction =>
      rw [List.length_cons] at room
      have notFull : BatchState.isQueueFull maxQueueSize queue = false := by
        simp only [BatchState.isQueueFull, decide_eq_false_iff_not]
        omega
      have pushedLen := PriorityQueue.len_push_le queue entry entry.priority
      rw [placed, notFull, Bool.false_and, if_neg Bool.false_ne_true, induction (by omega)]

/-- With room for the whole batch the users fit, unless something has come
between. -/
theorem restoresUsers_of_room {layout : QueueLayout} {maxQueueSize : Nat} {batch : InFlight}
    {shared : Shared} (separate : shared.SeparateUsers) (together : shared.FitsTogether batch)
    (room : shared.batchQueue.len + batch.entries.length ≤ maxQueueSize) :
    shared.RestoresUsers layout maxQueueSize batch := by
  have all := placed_of_room room
  have entriesOf : ∀ address,
      ((batch.entries ++ shared.batchQueue.items).filter fun entry => entry.sender = address).Perm
        ((queueWith batch.entries shared.batchQueue).entriesOf address) :=
    fun address => (items_pushAll_perm together.keys).symm.filter _
  apply restoresUsers_of_restorable separate
  rw [all]
  constructor
  · intro entry member
    rw [List.drop_length] at member
    cases member
  · exact together.present
  · intro address _ ref found
    rw [together.nonce address ref found]
    exact nextNonce_perm (entriesOf address) _
  · intro address _
    exact (together.ordered address).perm (entriesOf address)
  · intro address _ absent
    exact together.counts address absent

end Shared

/-! ## A dropped proof -/

namespace Sample

/-- The upload of a batch fails after another proof with the same fee was
queued. -/
def failsMeanwhile : List Label :=
  firstProof 0 1 0 1000000 ++ [.extract layout 1 1] ++ firstProof 1 2 0 1000000 ++
    [.finalize, .failSubmission]

end Sample

theorem separateUsers_of_run {environment : Environment} {config : Config} {chain : Chain}
    {disabledVerifiers lastUploadedBatchBlock : Nat} {labels : List Label} {finish : System}
    (ran : (batcher environment config).run
      (initialSystem config chain disabledVerifiers lastUploadedBatchBlock) labels = some finish) :
    finish.shared.SeparateUsers := by
  have owned : Owned finish :=
    Machine.run_invariant owned_step (owned_initial config chain _ _) ran
  exact owned.separate

theorem restoresUsers_iff_afterFailure :
    ∃ finish batch, (batcher Sample.environment (Sample.config 2)).run
        (Sample.system 2 100000000) Sample.failsMeanwhile = some finish ∧
      finish.shared.batch = some (batch, .failed) ∧
      (finish.shared.RestoresUsers Sample.layout 2 batch ↔
        finish.shared.Restorable Sample.layout 2 batch
          (Shared.placed 2 batch.entries finish.shared.batchQueue)) := by
  have found : ((batcher Sample.environment (Sample.config 2)).run
      (Sample.system 2 100000000) Sample.failsMeanwhile).any (fun finish =>
        finish.shared.batch.any fun work => work.2 = .failed) = true := by
    decide +kernel
  obtain ⟨finish, ran, facts⟩ := (Option.any_eq_true _ _).mp found
  obtain ⟨⟨batch, stage⟩, current, failed⟩ := (Option.any_eq_true _ _).mp facts
  cases of_decide_eq_true failed
  refine ⟨finish, batch, ran, current, ?_⟩
  exact Shared.restoresUsers_iff Sample.layout 2 batch finish.shared (separateUsers_of_run ran)

/-- With room for one proof, that of user 1 is dropped, and the user keeps the
nonce after it. -/
theorem dropped_proof_keeps_nonce :
    ∃ finish batch, (batcher Sample.environment (Sample.config 1)).run
        (Sample.system 1 100000000) Sample.failsMeanwhile = some finish ∧
      finish.shared.batch = some (batch, .failed) ∧
      ¬ finish.shared.RestoresUsers Sample.layout 1 batch := by
  have found : ((batcher Sample.environment (Sample.config 1)).run
      (Sample.system 1 100000000) Sample.failsMeanwhile).any (fun finish =>
        finish.shared.batch.any fun work => work.2 = .failed ∧
          1 ∈ sendersOf (work.1.entries ++ finish.shared.batchQueue.items) ∧
          (finish.shared.userStates 1).any fun ref =>
            (finish.shared.cells ref).nonce ≠ nextNonce (finish.shared.onChainNonce 1)
              ((Shared.queueWith
                (Shared.placed 1 work.1.entries finish.shared.batchQueue)
                  finish.shared.batchQueue).entriesOf 1)) = true := by
    decide +kernel
  obtain ⟨finish, ran, facts⟩ := (Option.any_eq_true _ _).mp found
  obtain ⟨⟨batch, stage⟩, current, holds⟩ := (Option.any_eq_true _ _).mp facts
  obtain ⟨failed, sender, cached⟩ := of_decide_eq_true holds
  obtain ⟨ref, stored, differs⟩ := (Option.any_eq_true _ _).mp cached
  cases failed
  refine ⟨finish, batch, ran, current, ?_⟩
  intro restores
  have restorable := Shared.restorable_of_restoresUsers (separateUsers_of_run ran) restores
  exact of_decide_eq_true differs (restorable.nonce 1 sender ref stored)

end AlignedLayer
