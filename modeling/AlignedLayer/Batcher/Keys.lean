import AlignedLayer.Batcher.BatchFinalization
import AlignedLayer.Batcher.Cover
import AlignedLayer.Batcher.Queued

/-!
# Keys and priorities of the entries

As long as no nonce is accepted twice and a failed batch finds room in the
queue, no sender and nonce are queued or in flight twice, and every queued
entry has the priority of its data.
-/

namespace AlignedLayer

variable {environment : Environment} {config : Config} {system next : System} {label : Label}
  {after : Shared}

/-- Every queued entry has its own priority, and no sender and nonce are queued
or in flight twice. -/
structure Keyed (shared : Shared) : Prop where
  priorities : OwnPriorities shared.batchQueue
  distinct : (shared.live.map BatchQueueEntry.key).Nodup

theorem OwnPriorities.push {queue : BatchQueue} {entry : BatchQueueEntry}
    (own : OwnPriorities queue) (fresh : entry.key ∉ queue.items.map BatchQueueEntry.key) :
    OwnPriorities (queue.push entry entry.priority) := by
  intro stored member
  rcases PriorityQueue.mem_push member with before | ⟨priority, key, rfl | queued⟩
  · exact own stored before
  · exact priority
  · exact absurd (key ▸ List.mem_map_of_mem queued) fresh

theorem OwnPriorities.of_subset {queue larger : BatchQueue} (own : OwnPriorities larger)
    (subset : ∀ stored ∈ queue.entries, stored ∈ larger.entries) : OwnPriorities queue :=
  fun stored member => own stored (subset stored member)

theorem OwnPriorities.erase {queue : BatchQueue} (own : OwnPriorities queue)
    (wanted : Address × Nat) : OwnPriorities (queue.erase wanted) :=
  own.of_subset fun _ member => (PriorityQueue.mem_erase.mp member).1

namespace Keyed

variable {shared : Shared}

/-- Entries are lost or change their place. -/
theorem of_lost (keyed : Keyed shared) (lost : List BatchQueueEntry)
    (subset : ∀ stored ∈ after.batchQueue.entries, stored ∈ shared.batchQueue.entries)
    (permutation : shared.live.Perm (lost ++ after.live)) : Keyed after where
  priorities := keyed.priorities.of_subset subset
  distinct := by
    have distinct := (permutation.map BatchQueueEntry.key).nodup_iff.mp keyed.distinct
    rw [List.map_append] at distinct
    exact distinct.of_append_right

theorem of_same (keyed : Keyed shared) (queue : after.batchQueue = shared.batchQueue)
    (inFlight : after.inFlight = shared.inFlight) : Keyed after := by
  refine keyed.of_lost [] (by rw [queue]; exact fun _ member => member) ?_
  rw [Shared.live, Shared.live, queue, inFlight]
  exact .refl _

theorem enter (keyed : Keyed shared) {batch : InFlight} {stage later : Stage}
    (sameQueue : after.batchQueue = shared.batchQueue)
    (current : shared.batch = some (batch, stage)) (entered : after.batch = some (batch, later))
    (openness : stage.isOpen = true ∨ later.isOpen = false) : Keyed after := by
  cases laterOpen : later.isOpen with
  | true =>
      rw [laterOpen] at openness
      apply keyed.of_same sameQueue
      rw [Shared.inFlight_of_open entered laterOpen,
        Shared.inFlight_of_open current (openness.resolve_right (by simp))]
  | false =>
      refine keyed.of_lost shared.inFlight (by rw [sameQueue]; exact fun _ m => m) ?_
      rw [Shared.live, Shared.live, sameQueue, Shared.inFlight_of_not_open entered laterOpen,
        List.append_nil]
      exact List.perm_append_comm

theorem acceptEntry (keyed : Keyed shared) {ref : Ref} {entry : BatchQueueEntry}
    (fresh : entry.key ∉ shared.live.map BatchQueueEntry.key) :
    Keyed (shared.acceptEntry ref entry) := by
  have freshQueue : entry.key ∉ shared.batchQueue.items.map BatchQueueEntry.key := by
    intro queued
    apply fresh
    rw [Shared.live, List.map_append]
    exact List.mem_append_left _ queued
  refine ⟨keyed.priorities.push freshQueue, ?_⟩
  have moved : (shared.acceptEntry ref entry).live.Perm (entry :: shared.live) :=
    (items_push_perm freshQueue).append_right _
  apply ((moved.map BatchQueueEntry.key).nodup_iff).mpr
  rw [List.map_cons, List.nodup_cons]
  exact ⟨fresh, keyed.distinct⟩

theorem erase (keyed : Keyed shared) {target : BatchQueueEntry}
    (queued : target ∈ shared.batchQueue.items)
    (queue : after.batchQueue = shared.batchQueue.erase target.key)
    (inFlight : after.inFlight = shared.inFlight) : Keyed after := by
  refine keyed.of_lost [target] ?_ ?_
  · rw [queue]
    exact fun _ member => (PriorityQueue.mem_erase.mp member).1
  · rw [Shared.live, Shared.live, queue, inFlight]
    exact (items_erase_perm queued).append_right _

theorem replaceEntry (keyed : Keyed shared) {ref : Ref} {original replacement : BatchQueueEntry}
    (queued : original ∈ shared.batchQueue.items) (same : replacement.key = original.key) :
    Keyed (shared.replaceEntry ref original replacement) := by
  have absent : replacement.key ∉
      (shared.batchQueue.erase replacement.key).items.map BatchQueueEntry.key := by
    intro repeated
    obtain ⟨other, member, key⟩ := List.mem_map.mp repeated
    exact (mem_items_erase.mp member).2 key
  refine ⟨(keyed.priorities.erase _).push absent, ?_⟩
  have before : shared.live.Perm
      (original :: ((shared.batchQueue.erase original.key).items ++ shared.inFlight)) :=
    (items_erase_perm queued).append_right _
  have moved : (shared.replaceEntry ref original replacement).live.Perm
      (replacement :: ((shared.batchQueue.erase original.key).items ++ shared.inFlight)) :=
    (items_replace_perm same).append_right _
  have distinct := (before.map BatchQueueEntry.key).nodup_iff.mp keyed.distinct
  apply ((moved.map BatchQueueEntry.key).nodup_iff).mpr
  rwa [List.map_cons, same]

theorem extract (keyed : Keyed shared) (layout : QueueLayout) (gasPrice blockNumber : Nat)
    (idle : shared.batch = none) :
    Keyed (shared.extract environment config layout gasPrice blockNumber) := by
  rcases Shared.extract_cases environment config layout gasPrice blockNumber shared with
    ⟨rest, permutation, equation⟩ | ⟨entries, rest, ⟨extracted⟩, equation⟩
  · rw [equation]
    refine keyed.of_lost [] ?_ ?_
    · exact fun _ member => permutation.mem_iff.mp member
    · exact ((permutation.map Prod.fst).append_right _).symm
  · rw [equation]
    refine keyed.of_lost [] ?_ ?_
    · exact fun _ member => extracted.perm.mem_iff.mpr (List.mem_append_right _ member)
    · rw [Shared.live, Shared.inFlight_of_none idle, List.append_nil]
      exact (Shared.items_of_extracted extracted).trans List.perm_append_comm

theorem restore (keyed : Keyed shared) {layout : QueueLayout} {maxQueueSize : Nat}
    {batch : InFlight} {restored : Shared} (current : shared.batch = some (batch, .failed))
    (room : shared.batchQueue.len + batch.entries.length ≤ maxQueueSize)
    (ran : shared.restore layout maxQueueSize batch = some restored) : Keyed restored := by
  rw [Shared.restore_of_room room] at ran
  cases ran
  have flying := Shared.inFlight_of_open current rfl
  have unique : ((batch.entries ++ shared.batchQueue.items).map BatchQueueEntry.key).Nodup := by
    have distinct := keyed.distinct
    rw [Shared.live, flying] at distinct
    exact (List.perm_append_comm.map BatchQueueEntry.key).nodup_iff.mp distinct
  have moved := Shared.items_pushAll_perm unique
  constructor
  · have pushed : (shared.batchQueue.pushAll (batch.entries.map
        fun entry => (entry, entry.priority))).entries.Perm
          (batch.entries.map (fun entry => (entry, entry.priority)) ++
            shared.batchQueue.entries) := by
      apply PriorityQueue.pushAll_perm
      simpa [PriorityQueue.items, Function.comp_def] using unique
    intro stored member
    rcases List.mem_append.mp (pushed.mem_iff.mp member) with new | before
    · obtain ⟨entry, -, rfl⟩ := List.mem_map.mp new
      rfl
    · exact keyed.priorities stored before
  · have nothing : Shared.inFlight
        { shared with
          batchQueue := shared.batchQueue.pushAll
            (batch.entries.map fun entry => (entry, entry.priority))
          batch := some (batch, .restored (sendersOf batch.entries))
          restored := shared.restored ++ [batch.number] } = [] := rfl
    rw [Shared.live, nothing, List.append_nil]
    exact ((moved.map BatchQueueEntry.key).nodup_iff).mpr unique

theorem removeUserProofs (keyed : Keyed shared) (address : Address) :
    Keyed (shared.removeUserProofs address) := by
  refine keyed.of_lost (shared.batchQueue.items.filter fun entry => entry.sender = address) ?_ ?_
  · intro stored member
    exact (List.mem_filter.mp member).1
  · rw [Shared.live, Shared.live, ← List.append_assoc]
    exact (Shared.removeUserProofs_perm address shared).append_right _

theorem flush (keyed : Keyed shared) : Keyed shared.flush := by
  refine keyed.of_lost shared.batchQueue.items ?_ (.refl _)
  intro stored member
  cases member

theorem afterFlush (keyed : Keyed shared) (origin : FlushOrigin) :
    Keyed (shared.afterFlush origin) := by
  cases origin with
  | disabledVerifiers => exact keyed
  | insufficientBalance =>
      rw [Shared.afterFlush]
      cases shared.batch with
      | none => exact keyed
      | some work =>
          refine keyed.of_lost shared.inFlight (fun _ member => member) ?_
          have nothing : (shared.resetBatch work.1).inFlight = [] := rfl
          rw [Shared.live, Shared.live, nothing, List.append_nil]
          exact List.perm_append_comm

end Keyed

/-- The condition on a step under which the entries and the states of every
address change together. -/
def KeepsAccounts (config : Config) (system : System) (label : Label) : Prop :=
  UsesCurrentUsers config system label ∧
    match label with
    | .enqueue task _ => system.When Phase.enqueuing (fun request _ =>
        (request.addr, request.noncedVerificationData.nonce) ∉
          system.shared.live.map BatchQueueEntry.key) task
    | .restore _ => system.shared.OfBatch fun batch =>
        system.shared.batchQueue.len + batch.entries.length ≤ config.maxQueueSize
    | _ => True

instance (config : Config) (system : System) (label : Label) :
    Decidable (KeepsAccounts config system label) := by
  apply @Label.casesOn (fun label => Decidable (KeepsAccounts config system label)) label
  all_goals intros
  all_goals dsimp only [KeepsAccounts]
  all_goals infer_instance

theorem Change.keyed (keyed : Keyed system.shared) (guarded : KeepsAccounts config system label)
    (change : Change environment config system label after) : Keyed after := by
  obtain ⟨uses, guarded⟩ := guarded
  cases change with
  | insertUser running => exact keyed.of_same rfl rfl
  | enqueue running room =>
      exact keyed.acceptEntry (System.When.running guarded running rfl)
  | @evict task layout request ref evictedRef balance target evicted running full found removed =>
      obtain ⟨-, -, ⟨priority, member⟩, -⟩ := Shared.evictionTarget_eq_some found
      obtain ⟨userStates, cells, rfl⟩ := Shared.evict_eq_ok removed
      have fresh := System.When.running guarded running rfl
      apply Keyed.acceptEntry
      · exact keyed.erase (mem_items_of_mem member) rfl rfl
      · intro repeated
        apply fresh
        rw [System.newEntry_key, Shared.live, List.map_append] at repeated
        rw [Shared.live, List.map_append]
        rcases List.mem_append.mp repeated with queued | flying
        · obtain ⟨other, otherMember, same⟩ := List.mem_map.mp queued
          exact List.mem_append_left _
            (same ▸ List.mem_map_of_mem (mem_items_erase.mp otherMember).1)
        · exact List.mem_append_right _ flying
  | evictPanics running full found removed =>
      obtain ⟨-, -, ⟨priority, member⟩, -⟩ := Shared.evictionTarget_eq_some found
      obtain ⟨userStates, cells, rfl⟩ := Shared.evict_eq_error removed
      exact keyed.erase (mem_items_of_mem member) rfl rfl
  | @replace task verifier request ref balance original running stored bumped valid =>
      obtain ⟨⟨priority, member⟩, -⟩ := BatchState.getEntry_eq_some stored
      have told : Keyed (system.shared.notify [original] .proofReplaced) := keyed.of_same rfl rfl
      exact told.replaceEntry (mem_items_of_mem member) (System.replacementEntry_key stored)
  | extract idle => exact keyed.extract _ _ _ idle
  | advance current unsent later =>
      exact keyed.enter rfl current rfl (.inl (Stage.isOpen_of_isUnsent unsent))
  | send labelled current unsent answered =>
      exact keyed.enter rfl current rfl (.inl (Stage.isOpen_of_isUnsent unsent))
  | giveUpWaiting current => exact keyed.enter rfl current rfl (.inl rfl)
  | endCancel current => exact keyed.enter rfl current rfl (.inl rfl)
  | receipt current included => exact keyed.enter rfl current rfl (.inr rfl)
  | @updateUser layout address batch users current member free =>
      obtain ⟨cells, equation⟩ := Shared.updateUser_eq layout address system.shared
      rw [equation]
      exact keyed.enter rfl current rfl (.inr rfl)
  | @updateRestoredUser layout address batch users current member free =>
      obtain ⟨cells, equation⟩ := Shared.updateUser_eq layout address system.shared
      rw [equation]
      exact keyed.enter rfl current rfl (.inr rfl)
  | @cleanupUser layout address batch users current free =>
      obtain ⟨cells, equation⟩ := Shared.cleanupUser_eq layout address system.shared
      rw [equation]
      exact keyed.enter rfl current rfl (.inr rfl)
  | close current closed updated later =>
      refine keyed.enter rfl current rfl (.inr ?_)
      rcases later with ⟨users, rfl⟩ | rfl
      · rfl
      · rfl
  | endRestored current =>
      refine keyed.of_same rfl ?_
      rw [Shared.inFlight_of_not_open current rfl, Shared.inFlight_of_none rfl]
  | respond current =>
      refine keyed.of_same rfl ?_
      rw [Shared.inFlight_of_not_open current rfl,
        Shared.inFlight_of_none (Shared.respond_batch uses current)]
  | restore current ran => exact keyed.restore current (guarded.current current) ran
  | flush => exact keyed.flush
  | flushAndReset labelled flushing => exact keyed.flush.afterFlush _
  | @insertNonpaying origin address nonce flushing configured =>
      have created : Keyed (system.shared.createUser address nonce) := keyed.of_same rfl rfl
      exact created.afterFlush _
  | removeUserProofs polled => exact keyed.removeUserProofs _
  | _ => exact keyed.of_same rfl rfl

end AlignedLayer
