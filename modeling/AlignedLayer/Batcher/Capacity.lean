import AlignedLayer.Batcher.Queued

/-!
# The length of the queue

Handlers, batches that are put back and batches that are extracted keep the
queue within `max_queue_size`.
-/

namespace AlignedLayer

variable {environment : Environment} {config : Config} {system next : System} {label : Label}

namespace Shared

variable {layout : QueueLayout} {maxQueueSize : Nat} {shared after : Shared}

/-- The eviction leaves one entry fewer, whether or not its end panics. -/
theorem len_evict {ref : Ref} {target : BatchQueueEntry}
    (queued : target ∈ shared.batchQueue.items) :
    (left (shared.evict layout ref target)).batchQueue.len + 1 = shared.batchQueue.len := by
  obtain ⟨priority, member⟩ := PriorityQueue.mem_items.mp queued
  obtain ⟨notices, evicted⟩ := left_evict layout ref target shared
  obtain ⟨userStates, cells, updated⟩ := updateEvictedUserState_eq layout target (some ref)
    { shared with batchQueue := shared.batchQueue.erase target.key }
  rw [evicted, updated]
  exact PriorityQueue.len_erase member

theorem len_acceptEntry_le (ref : Ref) (entry : BatchQueueEntry) :
    (shared.acceptEntry ref entry).batchQueue.len ≤ shared.batchQueue.len + 1 :=
  PriorityQueue.len_push_le _ _ _

theorem len_replaceEntry {ref : Ref} {original replacement : BatchQueueEntry}
    (queued : original ∈ shared.batchQueue.items) (same : replacement.key = original.key) :
    (shared.replaceEntry ref original replacement).batchQueue.len = shared.batchQueue.len := by
  have before := (items_erase_perm queued).length_eq
  have now := (@items_replace_perm shared.batchQueue replacement.priority _ _ same).length_eq
  rw [← PriorityQueue.items_length, ← PriorityQueue.items_length]
  rw [List.length_cons] at before now
  exact now.trans before.symm

theorem len_removeUserProofs_le (address : Address) :
    (shared.removeUserProofs address).batchQueue.len ≤ shared.batchQueue.len := by
  rw [← PriorityQueue.items_length, ← PriorityQueue.items_length, removeUserProofs_items]
  exact List.length_filter_le _ _

theorem len_extract_le (environment : Environment) (config : Config) (gasPrice : Nat)
    (blockNumber : Nat) :
    (shared.extract environment config layout gasPrice blockNumber).batchQueue.len ≤
      shared.batchQueue.len := by
  rcases extract_cases environment config layout gasPrice blockNumber shared with
    ⟨rest, permutation, extracted⟩ | ⟨entries, rest, ⟨taken⟩, extracted⟩
  · rw [extracted]
    exact Nat.le_of_eq permutation.length_eq
  · have lengths := (items_of_extracted taken).length_eq
    rw [List.length_append, PriorityQueue.items_length, PriorityQueue.items_length] at lengths
    have fewer : rest.len ≤ shared.batchQueue.len := by omega
    rw [extracted]
    exact fewer

/-- An entry is put back only while there is room for it. -/
theorem restoreEntries_len_le {entries restoredEntries restored : List BatchQueueEntry}
    {queue final : BatchQueue} (positive : 1 ≤ maxQueueSize) (fits : queue.len ≤ maxQueueSize)
    (ran : restoreEntries layout maxQueueSize entries restoredEntries queue =
      some (final, restored)) :
    final.len ≤ maxQueueSize := by
  induction entries generalizing restoredEntries queue with
  | nil =>
      cases ran
      exact fits
  | cons entry rest induction =>
      rw [restoreEntries] at ran
      split at ran
      · next full =>
          split at ran
          · next nothing =>
              -- A queue that is full and empty has no room for any entry.
              have empty := PriorityQueue.peek_eq_none.mp nothing
              rw [BatchState.isQueueFull, decide_eq_true_iff, PriorityQueue.len, empty] at full
              exact absurd positive (Nat.not_le.mpr (Nat.lt_succ_of_le full))
          · split at ran
            · cases ran
            · exact induction fits ran
      · next room =>
          rw [BatchState.isQueueFull, decide_eq_true_iff, Nat.not_le] at room
          exact induction (Nat.le_trans (PriorityQueue.len_push_le _ _ _) room) ran

theorem len_restore_le {batch : InFlight} {restored : Shared} (positive : 1 ≤ maxQueueSize)
    (fits : shared.batchQueue.len ≤ maxQueueSize)
    (ran : shared.restore layout maxQueueSize batch = some restored) :
    restored.batchQueue.len ≤ maxQueueSize := by
  obtain ⟨⟨queue, restoredEntries⟩, entries, rfl⟩ := Option.map_eq_some_iff.mp ran
  exact restoreEntries_len_le positive fits entries

end Shared

theorem Change.len_le {after : Shared} (positive : 1 ≤ config.maxQueueSize)
    (fits : system.shared.batchQueue.len ≤ config.maxQueueSize)
    (change : Change environment config system label after) :
    after.batchQueue.len ≤ config.maxQueueSize := by
  cases change with
  | enqueue running room =>
      rw [BatchState.isQueueFull, decide_eq_false_iff_not, Nat.not_le] at room
      exact Nat.le_trans (Shared.len_acceptEntry_le _ _) room
  | @evict task layout request ref evictedRef balance target evicted running full found removed =>
      obtain ⟨-, -, ⟨priority, member⟩, -⟩ := Shared.evictionTarget_eq_some found
      have fewer := @Shared.len_evict layout system.shared evictedRef target
        (mem_items_of_mem member)
      rw [removed, Shared.left] at fewer
      apply Nat.le_trans (Shared.len_acceptEntry_le _ _)
      omega
  | @evictPanics task layout request ref evictedRef balance target evicted running full found
      removed =>
      obtain ⟨-, -, ⟨priority, member⟩, -⟩ := Shared.evictionTarget_eq_some found
      have fewer := @Shared.len_evict layout system.shared evictedRef target
        (mem_items_of_mem member)
      rw [removed, Shared.left] at fewer
      omega
  | @replace task verifier request ref balance original running stored bumped valid =>
      obtain ⟨⟨priority, member⟩, -⟩ := BatchState.getEntry_eq_some stored
      have same := @System.replacementEntry_key environment _ _ _ stored
      have queued : original ∈
          (system.shared.notify [original] .proofReplaced).batchQueue.items :=
        mem_items_of_mem member
      rw [Shared.len_replaceEntry queued same]
      exact fits
  | extract idle =>
      exact Nat.le_trans (Shared.len_extract_le environment config _ _) fits
  | @updateUser layout address batch users current member free =>
      obtain ⟨cells, updated⟩ := Shared.updateUser_eq layout address system.shared
      rw [updated]
      exact fits
  | @updateRestoredUser layout address batch users current member free =>
      obtain ⟨cells, updated⟩ := Shared.updateUser_eq layout address system.shared
      rw [updated]
      exact fits
  | @cleanupUser layout address batch users current free =>
      obtain ⟨cells, updated⟩ := Shared.cleanupUser_eq layout address system.shared
      rw [updated]
      exact fits
  | restore current ran => exact Shared.len_restore_le positive fits ran
  | flush => exact Nat.zero_le _
  | flushAndReset labelled flushing =>
      rw [Shared.afterFlush_batchQueue]
      exact Nat.zero_le _
  | insertNonpaying flushing configured =>
      rw [Shared.afterFlush_batchQueue]
      exact fits
  | removeUserProofs polled =>
      exact Nat.le_trans (Shared.len_removeUserProofs_le _) fits
  | _ => exact fits

theorem len_step (positive : 1 ≤ config.maxQueueSize)
    (fits : system.shared.batchQueue.len ≤ config.maxQueueSize)
    (stepped : (batcher environment config).step system label = some next) :
    next.shared.batchQueue.len ≤ config.maxQueueSize :=
  (step_change stepped).len_le positive fits

theorem len_initial (config : Config) (chain : Chain)
    (disabledVerifiers lastUploadedBatchBlock : Nat) :
    (initialSystem config chain disabledVerifiers lastUploadedBatchBlock).shared.batchQueue.len =
      0 := by
  obtain ⟨userStates, cells, nextRef, equation⟩ := Shared.initial_eq config chain
  simp only [initialSystem, equation]
  rfl

theorem len_of_run {chain : Chain} {disabledVerifiers lastUploadedBatchBlock : Nat}
    {labels : List Label} {finish : System} (positive : 1 ≤ config.maxQueueSize)
    (ran : (batcher environment config).run
      (initialSystem config chain disabledVerifiers lastUploadedBatchBlock) labels = some finish) :
    finish.shared.batchQueue.len ≤ config.maxQueueSize := by
  have fits : (initialSystem config chain disabledVerifiers
      lastUploadedBatchBlock).shared.batchQueue.len ≤ config.maxQueueSize := by
    rw [len_initial]
    exact Nat.zero_le _
  exact Machine.run_invariant (len_step positive) fits ran

end AlignedLayer
