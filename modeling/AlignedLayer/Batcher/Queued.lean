import AlignedLayer.Batcher.Control
import AlignedLayer.Batcher.Entries

/-!
# How an entry gets into the queue

An entry is queued by the handler of its message, by the handler of a message
that replaces another one, or as part of a failed batch that is put back.
Each of these waits for a flush that is going on.
-/

namespace AlignedLayer

variable {environment : Environment} {config : Config} {system next : System} {label : Label}
  {after : Shared} {entry : BatchQueueEntry}

/-- The step may put the entry into the queue. -/
inductive Queues (environment : Environment) (system : System) :
    Label → BatchQueueEntry → Prop where
  | enqueue {task : TaskId} {layout : QueueLayout} {request : Request} {ref : Ref} {balance : Nat}
      (running : system.handlers task = some (request, .enqueue ref balance)) :
      Queues environment system (.enqueue task layout) (System.newEntry environment request)
  | replace {task : TaskId} {verifier : VerifierCall → Bool} {request : Request} {ref : Ref}
      {balance : Nat} {original : BatchQueueEntry}
      (running : system.handlers task = some (request, .replace ref balance))
      (stored : BatchState.getEntry system.shared.batchQueue request.addr
        request.noncedVerificationData.nonce = some original) :
      Queues environment system (.replace task verifier)
        (System.replacementEntry environment request original)
  | restore {layout : QueueLayout} {batch : InFlight} {entry : BatchQueueEntry}
      (current : system.shared.batch = some (batch, .failed)) (member : entry ∈ batch.entries) :
      Queues environment system (.restore layout) entry

theorem mem_items_push {queue : BatchQueue} {new : BatchQueueEntry}
    {priority : BatchQueueEntryPriority} (member : entry ∈ (queue.push new priority).items) :
    entry = new ∨ entry ∈ queue.items := by
  obtain ⟨dropped, permutation, -⟩ := items_push_spec queue new priority
  have before := permutation.mem_iff.mpr (List.mem_append_right dropped member)
  exact List.mem_cons.mp before

@[simp] theorem Shared.afterFlush_batchQueue (origin : FlushOrigin) (shared : Shared) :
    (shared.afterFlush origin).batchQueue = shared.batchQueue := by
  cases origin with
  | disabledVerifiers => rfl
  | insufficientBalance =>
      rw [Shared.afterFlush]
      cases shared.batch with
      | none => rfl
      | some work => rfl

/-- The stored entry was not touched, or one of the pushed entries has its key
and has given it its priority. -/
def StoredBy (queued : BatchQueueEntry → Prop) (queue : BatchQueue)
    (stored : BatchQueueEntry × BatchQueueEntryPriority) : Prop :=
  stored ∈ queue.entries ∨
    (stored.1 ∈ queue.items ∨ queued stored.1) ∧
      ∃ entry, queued entry ∧ stored.2 = entry.priority ∧ stored.1.key = entry.key

theorem StoredBy.of_push {queued : BatchQueueEntry → Prop} {queue : BatchQueue}
    {new : BatchQueueEntry} {stored : BatchQueueEntry × BatchQueueEntryPriority}
    (isQueued : queued new) (member : stored ∈ (queue.push new new.priority).entries) :
    StoredBy queued queue stored := by
  rcases PriorityQueue.mem_push member with before | ⟨priority, key, item⟩
  · exact .inl before
  · refine .inr ⟨?_, new, isQueued, priority, key⟩
    rcases item with rfl | before
    · exact .inr isQueued
    · exact .inl before

/-- Nothing but what was in a larger queue before the push was in the smaller one. -/
theorem StoredBy.of_subset {queued : BatchQueueEntry → Prop} {queue larger : BatchQueue}
    {stored : BatchQueueEntry × BatchQueueEntryPriority}
    (subset : ∀ entry ∈ queue.entries, entry ∈ larger.entries)
    (storedBy : StoredBy queued queue stored) : StoredBy queued larger stored := by
  rcases storedBy with before | ⟨item, pushed⟩
  · exact .inl (subset _ before)
  · refine .inr ⟨item.imp_left ?_, pushed⟩
    intro member
    obtain ⟨priority, inQueue⟩ := PriorityQueue.mem_items.mp member
    exact mem_items_of_mem (subset _ inQueue)

theorem Shared.restoreEntries_stored {layout : QueueLayout} {maxQueueSize : Nat}
    {entries restoredEntries restored : List BatchQueueEntry} {queue final : BatchQueue}
    (ran : restoreEntries layout maxQueueSize entries restoredEntries queue =
      some (final, restored))
    {stored : BatchQueueEntry × BatchQueueEntryPriority} (member : stored ∈ final.entries) :
    StoredBy (· ∈ entries) queue stored := by
  induction entries generalizing restoredEntries queue with
  | nil =>
      cases ran
      exact .inl member
  | cons entry rest induction =>
      rw [restoreEntries] at ran
      have first : entry ∈ entry :: rest := List.mem_cons_self
      have weaken : ∀ {queue : BatchQueue}, StoredBy (· ∈ rest) queue stored →
          StoredBy (· ∈ entry :: rest) queue stored := by
        intro queue storedBy
        rcases storedBy with before | ⟨item, pushed, isPushed, same⟩
        · exact .inl before
        · exact .inr ⟨item.imp_right (List.mem_cons_of_mem _), pushed,
            List.mem_cons_of_mem _ isPushed, same⟩
      have pushed : StoredBy (· ∈ rest) (queue.push entry entry.priority) stored →
          StoredBy (· ∈ entry :: rest) queue stored := by
        intro storedBy
        rcases weaken storedBy with before | ⟨item, later⟩
        · exact .of_push first before
        · refine .inr ⟨?_, later⟩
          rcases item with before | queued
          · rcases mem_items_push before with rfl | earlier
            · exact .inr first
            · exact .inl earlier
          · exact .inr queued
      split at ran
      · split at ran
        · exact pushed (induction ran)
        · split at ran
          · cases ran
          · exact weaken (induction ran)
      · exact pushed (induction ran)

/-- Every stored entry was stored before, or got its priority from this step. -/
theorem Change.stored (change : Change environment config system label after)
    {stored : BatchQueueEntry × BatchQueueEntryPriority}
    (member : stored ∈ after.batchQueue.entries) :
    StoredBy (Queues environment system label) system.shared.batchQueue stored := by
  have ofErase : ∀ {wanted : Address × Nat},
      ∀ entry ∈ (system.shared.batchQueue.erase wanted).entries,
        entry ∈ system.shared.batchQueue.entries :=
    fun entry inErased => (PriorityQueue.mem_erase.mp inErased).1
  cases change with
  | enqueue running room => exact .of_push (.enqueue running) member
  | evict running full found removed =>
      obtain ⟨userStates, cells, rfl⟩ := Shared.evict_eq_ok removed
      exact (StoredBy.of_push (.enqueue running) member).of_subset ofErase
  | evictPanics running full found removed =>
      obtain ⟨userStates, cells, rfl⟩ := Shared.evict_eq_error removed
      exact .inl (ofErase _ member)
  | replace running stored bumped valid =>
      exact (StoredBy.of_push (.replace running stored) member).of_subset ofErase
  | @extract layout gasPrice blockNumber idle =>
      left
      rcases Shared.extract_cases environment config layout
        (gasPrice * gasPricePercentageMultiplier / percentageDivider) blockNumber system.shared
        with ⟨rest, same, equation⟩ | ⟨entries, rest, ⟨extracted⟩, equation⟩
      · rw [equation] at member
        exact same.mem_iff.mp member
      · rw [equation] at member
        exact extracted.perm.mem_iff.mpr (List.mem_append_right _ member)
  | restore current ran =>
      obtain ⟨⟨queue, restored⟩, entries, rfl⟩ := Option.map_eq_some_iff.mp ran
      rcases Shared.restoreEntries_stored entries member with before | ⟨item, entry, queued, same⟩
      · exact .inl before
      · exact .inr ⟨item.imp_right (.restore current), entry, .restore current queued, same⟩
  | flush => cases member
  | flushAndReset labelled flushing =>
      rw [Shared.afterFlush_batchQueue] at member
      cases member
  | insertNonpaying flushing configured =>
      rw [Shared.afterFlush_batchQueue] at member
      exact .inl member
  | removeUserProofs polled => exact .inl (List.mem_filter.mp member).1
  | @updateUser layout address batch users current mem free =>
      obtain ⟨cells, same⟩ := Shared.updateUser_eq layout address system.shared
      rw [same] at member
      exact .inl member
  | @updateRestoredUser layout address batch users current mem free =>
      obtain ⟨cells, same⟩ := Shared.updateUser_eq layout address system.shared
      rw [same] at member
      exact .inl member
  | @cleanupUser layout address batch users current free =>
      obtain ⟨cells, same⟩ := Shared.cleanupUser_eq layout address system.shared
      rw [same] at member
      exact .inl member
  | _ => exact .inl member

/-- Every queued entry was queued before, or is queued by this step. -/
theorem Change.queued (change : Change environment config system label after)
    (member : entry ∈ after.batchQueue.items) :
    entry ∈ system.shared.batchQueue.items ∨ Queues environment system label entry := by
  obtain ⟨priority, stored⟩ := PriorityQueue.mem_items.mp member
  rcases change.stored stored with before | ⟨item, -⟩
  · exact .inl (mem_items_of_mem before)
  · exact item

/-- Nothing is queued while a flush is going on. -/
theorem Queues.idle (queues : Queues environment system label entry)
    (stepped : (batcher environment config).step system label = some next) :
    system.flush = none := by
  cases queues with
  | enqueue running =>
      simp only [batcher, System.enqueue, running] at stepped
      split at stepped
      · cases stepped
      · rename_i idle
        exact Option.not_isSome_iff_eq_none.mp idle
  | replace running stored =>
      simp only [batcher, System.replace, running] at stepped
      split at stepped
      · cases stepped
      · rename_i idle
        simp only [Bool.or_eq_true, not_or] at idle
        exact Option.not_isSome_iff_eq_none.mp idle.1
  | restore current member =>
      simp only [batcher, System.restore, current] at stepped
      split at stepped
      · cases stepped
      · rename_i idle
        exact Option.not_isSome_iff_eq_none.mp idle

end AlignedLayer
