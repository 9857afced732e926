import AlignedLayer.Batcher.Ownership

/-!
# Where the entries are

The entries the batcher is responsible for are queued or belong to the batch
in flight.  Each operation on the shared data is described by what it does to
these entries and to the rest of the data.
-/

namespace AlignedLayer

namespace Shared

/-- The entries of the batch that may still go back to the queue. -/
def inFlight (shared : Shared) : List BatchQueueEntry :=
  match shared.batch with
  | none => []
  | some (batch, stage) => if stage.isOpen then batch.entries else []

/-- The entries in flight whose `createNewTask` has not taken effect. -/
def unmined (shared : Shared) : List BatchQueueEntry :=
  match shared.batch with
  | none => []
  | some (batch, _) => if shared.chain.isMined batch.number then [] else shared.inFlight

/-- Everything queued or in flight. -/
def live (shared : Shared) : List BatchQueueEntry :=
  shared.batchQueue.items ++ shared.inFlight

theorem inFlight_of_none {shared : Shared} (idle : shared.batch = none) :
    shared.inFlight = [] := by
  rw [inFlight, idle]

theorem inFlight_of_open {shared : Shared} {batch : InFlight} {stage : Stage}
    (current : shared.batch = some (batch, stage)) (isOpen : stage.isOpen = true) :
    shared.inFlight = batch.entries := by
  simp [inFlight, current, isOpen]

/-- Going from one open stage to another keeps the entries in flight. -/
theorem inFlight_enter {shared : Shared} {batch : InFlight} {stage next : Stage}
    (current : shared.batch = some (batch, stage)) (isOpen : stage.isOpen = true)
    (nextOpen : next.isOpen = true) : (shared.enter batch next).inFlight = shared.inFlight := by
  simp [inFlight, enter, current, isOpen, nextOpen]

theorem inFlight_of_not_open {shared : Shared} {batch : InFlight} {stage : Stage}
    (current : shared.batch = some (batch, stage)) (closed : stage.isOpen = false) :
    shared.inFlight = [] := by
  simp [inFlight, current, closed]

end Shared

theorem Stage.isOpen_of_isUnsent {stage : Stage} (unsent : stage.isUnsent = true) :
    stage.isOpen = true := by
  cases stage <;> first | rfl | cases unsent

theorem Stage.isOpen_of_isLost {stage : Stage} (lost : stage.isLost = true) :
    stage.isOpen = true := by
  cases stage <;> first | rfl | cases lost

theorem Stage.not_isOpen_of_isClosed {stage : Stage} (closed : stage.isClosed = true) :
    stage.isOpen = false := by
  cases stage <;> first | rfl | cases closed

/-! ## The queue -/

section Queue

variable {queue : BatchQueue} {entry : BatchQueueEntry} {priority : BatchQueueEntryPriority}

theorem mem_items_of_mem (member : (entry, priority) ∈ queue.entries) : entry ∈ queue.items :=
  PriorityQueue.mem_items.mpr ⟨priority, member⟩

theorem items_push_perm (fresh : entry.key ∉ queue.items.map BatchQueueEntry.key) :
    (queue.push entry priority).items.Perm (entry :: queue.items) := by
  refine (PriorityQueue.push_perm ?_ priority).map Prod.fst
  intro stored member same
  apply fresh
  rw [← same]
  exact List.mem_map_of_mem (mem_items_of_mem member)

theorem items_push_of_queued (queued : entry.key ∈ queue.items.map BatchQueueEntry.key) :
    (queue.push entry priority).items = queue.items := by
  refine PriorityQueue.items_push_of_present ?_ priority
  obtain ⟨stored, member, same⟩ := List.mem_map.mp queued
  obtain ⟨storedPriority, storedMember⟩ := PriorityQueue.mem_items.mp member
  exact ⟨(stored, storedPriority), storedMember, same⟩

/-- A pushed entry is stored, unless its key is queued already. -/
theorem items_push_spec (queue : BatchQueue) (entry : BatchQueueEntry)
    (priority : BatchQueueEntryPriority) :
    ∃ dropped, (entry :: queue.items).Perm (dropped ++ (queue.push entry priority).items) ∧
      (entry.key ∉ queue.items.map BatchQueueEntry.key → dropped = []) := by
  by_cases queued : entry.key ∈ queue.items.map BatchQueueEntry.key
  · refine ⟨[entry], ?_, fun fresh => absurd queued fresh⟩
    rw [items_push_of_queued queued]
    exact .refl _
  · exact ⟨[], (items_push_perm queued).symm, fun _ => rfl⟩

theorem items_erase_perm (member : entry ∈ queue.items) :
    queue.items.Perm (entry :: (queue.erase entry.key).items) := by
  obtain ⟨stored, storedMember⟩ := PriorityQueue.mem_items.mp member
  exact (PriorityQueue.perm_erase storedMember).map Prod.fst

theorem mem_items_erase {wanted : Address × Nat} :
    entry ∈ (queue.erase wanted).items ↔ entry ∈ queue.items ∧ entry.key ≠ wanted := by
  simp only [PriorityQueue.mem_items, PriorityQueue.mem_erase]
  constructor
  · rintro ⟨stored, member, different⟩
    exact ⟨⟨stored, member⟩, different⟩
  · rintro ⟨⟨stored, member⟩, different⟩
    exact ⟨stored, member, different⟩

/-- After the original has left, the replacement's key is free. -/
theorem items_replace_perm {original replacement : BatchQueueEntry}
    (same : replacement.key = original.key) :
    ((queue.erase replacement.key).push replacement priority).items.Perm
      (replacement :: (queue.erase original.key).items) := by
  rw [same]
  refine items_push_perm ?_
  intro queued
  obtain ⟨other, otherMember, otherSame⟩ := List.mem_map.mp queued
  exact (mem_items_erase.mp otherMember).2 (otherSame.trans same)

theorem entriesOf_of_cons {moved : BatchQueue}
    (permutation : moved.items.Perm (entry :: queue.items)) :
    (moved.entriesOf entry.sender).Perm (entry :: queue.entriesOf entry.sender) := by
  have filtered := permutation.filter fun other => other.sender = entry.sender
  rwa [List.filter_cons_of_pos (by simp)] at filtered

end Queue

/-! ## Operations on the shared data -/

namespace Shared

theorem lastEntryOf_eq_some {layout : QueueLayout} {queue : BatchQueue}
    {sender : Address} {last : BatchQueueEntry}
    (found : lastEntryOf layout queue sender = some last) :
    last ∈ queue.items ∧ last.sender = sender := by
  obtain ⟨stored, isOwn⟩ := List.mem_filter.mp (List.mem_of_getLast? found)
  exact ⟨((layout.iter_perm queue.entries).map Prod.fst).mem_iff.mp stored,
    of_decide_eq_true isOwn⟩

/-- Some entry of the user is left. -/
theorem lastEntryOf_of_mem {layout : QueueLayout} {queue : BatchQueue} {entry : BatchQueueEntry}
    (queued : entry ∈ queue.items) : ∃ last, lastEntryOf layout queue entry.sender = some last := by
  have own : entry ∈ ((queue.iter layout).map Prod.fst).filter
      fun other => other.sender = entry.sender :=
    List.mem_filter.mpr
      ⟨((layout.iter_perm queue.entries).map Prod.fst).mem_iff.mpr queued, decide_eq_true rfl⟩
  exact Option.isSome_iff_exists.mp (List.getLast?_isSome.mpr (List.ne_nil_of_mem own))

theorem updateEvictedUserState_eq (layout : QueueLayout) (removed : BatchQueueEntry)
    (userStateRef : Option Ref) (shared : Shared) :
    ∃ userStates cells, left (updateEvictedUserState layout removed userStateRef shared) =
      { shared with userStates := userStates, cells := cells } := by
  cases found : lastEntryOf layout shared.batchQueue removed.sender with
  | none =>
      simp only [updateEvictedUserState, found]
      exact ⟨_, shared.cells, rfl⟩
  | some last =>
      cases userStateRef with
      | none =>
          simp only [updateEvictedUserState, found]
          exact ⟨shared.userStates, shared.cells, rfl⟩
      | some ref =>
          simp only [updateEvictedUserState, found]
          cases (shared.cells ref).evictEntry removed.maxFee last.maxFee with
          | ok userState => exact ⟨shared.userStates, _, rfl⟩
          | error userState => exact ⟨shared.userStates, _, rfl⟩

/-- Only the evicted user can lose its state. -/
theorem updateEvictedUserState_users {layout : QueueLayout} {removed : BatchQueueEntry}
    {userStateRef : Option Ref} {shared : Shared} {address : Address}
    (different : address ≠ removed.sender) :
    (left (updateEvictedUserState layout removed userStateRef shared)).userStates address =
      shared.userStates address := by
  cases found : lastEntryOf layout shared.batchQueue removed.sender with
  | none =>
      simp only [updateEvictedUserState, found]
      exact Function.update_of_ne different _ _
  | some last =>
      cases userStateRef with
      | none => simp only [updateEvictedUserState, found, left]
      | some ref =>
          simp only [updateEvictedUserState, found]
          cases (shared.cells ref).evictEntry removed.maxFee last.maxFee with
          | ok userState => rfl
          | error userState => rfl

/-- An eviction leaves what the update of the user state leaves, but for the
message. -/
theorem left_evict (layout : QueueLayout) (ref : Ref) (target : BatchQueueEntry)
    (shared : Shared) :
    ∃ notices, left (evict layout ref target shared) =
      { left (updateEvictedUserState layout target (some ref)
          { shared with batchQueue := shared.batchQueue.erase target.key }) with
        notices := notices } := by
  rw [evict]
  cases updateEvictedUserState layout target (some ref)
      { shared with batchQueue := shared.batchQueue.erase target.key } with
  | ok finished => exact ⟨_, rfl⟩
  | error panicked => exact ⟨panicked.notices, rfl⟩

theorem evict_users (layout : QueueLayout) (ref : Ref) {target : BatchQueueEntry}
    (shared : Shared) {address : Address} (different : address ≠ target.sender) :
    (left (evict layout ref target shared)).userStates address = shared.userStates address := by
  obtain ⟨notices, equation⟩ := left_evict layout ref target shared
  rw [equation]
  exact updateEvictedUserState_users different

/-- An eviction that finishes removes the target and tells its connection. -/
theorem evict_eq_ok {layout : QueueLayout} {ref : Ref} {target : BatchQueueEntry}
    {shared after : Shared} (evicted : shared.evict layout ref target = .ok after) :
    ∃ userStates cells, after = notify [target] .underpricedProof
      { shared with
        batchQueue := shared.batchQueue.erase target.key
        userStates := userStates
        cells := cells } := by
  obtain ⟨userStates, cells, updated⟩ := updateEvictedUserState_eq layout target (some ref)
    { shared with batchQueue := shared.batchQueue.erase target.key }
  rw [evict] at evicted
  cases result : updateEvictedUserState layout target (some ref)
      { shared with batchQueue := shared.batchQueue.erase target.key } with
  | error panicked =>
      rw [result] at evicted
      cases evicted
  | ok finished =>
      rw [result] at evicted updated
      cases evicted
      exact ⟨userStates, cells, congrArg (notify [target] .underpricedProof) updated⟩

/-- An eviction that panics has removed the target and told nobody. -/
theorem evict_eq_error {layout : QueueLayout} {ref : Ref} {target : BatchQueueEntry}
    {shared after : Shared} (evicted : shared.evict layout ref target = .error after) :
    ∃ userStates cells, after =
      { shared with
        batchQueue := shared.batchQueue.erase target.key
        userStates := userStates
        cells := cells } := by
  obtain ⟨userStates, cells, updated⟩ := updateEvictedUserState_eq layout target (some ref)
    { shared with batchQueue := shared.batchQueue.erase target.key }
  rw [evict] at evicted
  cases result : updateEvictedUserState layout target (some ref)
      { shared with batchQueue := shared.batchQueue.erase target.key } with
  | error panicked =>
      rw [result] at evicted updated
      cases evicted
      exact ⟨userStates, cells, updated⟩
  | ok finished =>
      rw [result] at evicted
      cases evicted

/-- An eviction whose counters are covered does not panic. -/
theorem evict_ok_of_covered {layout : QueueLayout} {ref : Ref} {target : BatchQueueEntry}
    {shared : Shared} (numbered : 0 < (shared.cells ref).nonce)
    (paid : target.maxFee ≤ (shared.cells ref).totalFeesInQueue) :
    ∃ evicted, shared.evict layout ref target = .ok evicted := by
  rw [evict]
  cases found : lastEntryOf layout (shared.batchQueue.erase target.key) target.sender with
  | none =>
      simp only [updateEvictedUserState, found]
      exact ⟨_, rfl⟩
  | some last =>
      simp only [updateEvictedUserState, found, UserState.evictEntry,
        if_neg (Nat.pos_iff_ne_zero.mp numbered), if_neg (Nat.not_lt.mpr paid)]
      exact ⟨_, rfl⟩

theorem updateUser_eq (layout : QueueLayout) (address : Address) (shared : Shared) :
    ∃ cells, shared.updateUser layout address = { shared with cells := cells } := by
  rw [updateUser]
  cases shared.userStates address with
  | none => exact ⟨shared.cells, rfl⟩
  | some ref => exact ⟨_, rfl⟩

theorem cleanupUser_eq (layout : QueueLayout) (address : Address) (shared : Shared) :
    ∃ cells, shared.cleanupUser layout address = { shared with cells := cells } := by
  rw [cleanupUser]
  cases shared.userStates address with
  | none => exact ⟨shared.cells, rfl⟩
  | some ref =>
      simp only
      split
      · exact ⟨shared.cells, rfl⟩
      · exact ⟨_, rfl⟩

/-- An extraction either leaves the queued entries as they are, or takes a
batch out of them. -/
theorem extract_cases (environment : Environment) (config : Config) (layout : QueueLayout)
    (gasPrice blockNumber : Nat) (shared : Shared) :
    (∃ rest : BatchQueue, rest.entries.Perm shared.batchQueue.entries ∧
      shared.extract environment config layout gasPrice blockNumber =
        { shared with batchQueue := rest }) ∨
    ∃ entries rest, Nonempty (Extracted (config.extractionLimits gasPrice) shared.batchQueue
        entries rest) ∧
      shared.extract environment config layout gasPrice blockNumber =
        { shared with
          batchQueue := rest
          batch := some
            ({ number := shared.batches
               blockNumber := blockNumber
               entries := entries
               call := config.createNewTaskCall environment.keccak
                 (environment.merkleRoot
                   (entries.map BatchQueueEntry.verificationDataCommitment))
                 entries gasPrice },
              .finalizing)
          batches := shared.batches + 1 } := by
  rcases extractBatchDirectly_cases layout (config.extractionLimits gasPrice)
      shared.batchQueue with ⟨entries, rest, ran, extracted⟩ | ⟨rest, ran, perm⟩
  · exact .inr ⟨entries, rest, extracted, by rw [extract, ran]⟩
  · exact .inl ⟨rest, perm, by rw [extract, ran]⟩

theorem removeUserProofs_items (address : Address) (shared : Shared) :
    (shared.removeUserProofs address).batchQueue.items =
      shared.batchQueue.items.filter fun entry => !decide (entry.sender = address) := by
  simp [removeUserProofs, notify, PriorityQueue.extractIf, PriorityQueue.retain,
    PriorityQueue.items, List.filter_map, Function.comp_def]

/-- The removed entries are those of the address, and the others stay. -/
theorem removeUserProofs_perm (address : Address) (shared : Shared) :
    shared.batchQueue.items.Perm
      ((shared.batchQueue.items.filter fun entry => entry.sender = address) ++
        (shared.removeUserProofs address).batchQueue.items) := by
  rw [removeUserProofs_items]
  exact (List.filter_append_perm _ _).symm

theorem items_of_extracted {limits : ExtractionLimits} {queue rest : BatchQueue}
    {batch : List BatchQueueEntry} (extracted : Extracted limits queue batch rest) :
    queue.items.Perm (batch ++ rest.items) := by
  rw [extracted.batch_eq, PriorityQueue.items, PriorityQueue.items, ← List.map_append]
  exact extracted.perm.map Prod.fst

/-! ## Putting a batch back -/

/-- With room for the whole batch, every entry is pushed. -/
theorem restoreEntries_of_room {layout : QueueLayout} {maxQueueSize : Nat}
    {entries restoredEntries : List BatchQueueEntry} {queue : BatchQueue}
    (room : queue.len + entries.length ≤ maxQueueSize) :
    restoreEntries layout maxQueueSize entries restoredEntries queue =
      some (queue.pushAll (entries.map fun entry => (entry, entry.priority)),
        restoredEntries ++ entries) := by
  induction entries generalizing restoredEntries queue with
  | nil => simp [restoreEntries, PriorityQueue.pushAll]
  | cons entry rest induction =>
      rw [List.length_cons] at room
      have notFull : BatchState.isQueueFull maxQueueSize queue = false := by
        simp only [BatchState.isQueueFull, decide_eq_false_iff_not]
        omega
      have pushedLen := PriorityQueue.len_push_le queue entry entry.priority
      rw [restoreEntries, notFull]
      simp only [Bool.false_eq_true, if_false]
      rw [induction (by omega)]
      simp [PriorityQueue.pushAll]

theorem restore_of_room {layout : QueueLayout} {maxQueueSize : Nat} {batch : InFlight}
    {shared : Shared} (room : shared.batchQueue.len + batch.entries.length ≤ maxQueueSize) :
    shared.restore layout maxQueueSize batch =
      some { shared with
        batchQueue := shared.batchQueue.pushAll
          (batch.entries.map fun entry => (entry, entry.priority))
        batch := some (batch, .restored (sendersOf batch.entries))
        restored := shared.restored ++ [batch.number] } := by
  simp [restore, restoreEntries_of_room room]

theorem items_pushAll_perm {queue : BatchQueue} {entries : List BatchQueueEntry}
    (unique : ((entries ++ queue.items).map BatchQueueEntry.key).Nodup) :
    (queue.pushAll (entries.map fun entry => (entry, entry.priority))).items.Perm
      (entries ++ queue.items) := by
  have pushed : (queue.pushAll (entries.map fun entry => (entry, entry.priority))).entries.Perm
      (entries.map (fun entry => (entry, entry.priority)) ++ queue.entries) := by
    apply PriorityQueue.pushAll_perm
    simpa [PriorityQueue.items, Function.comp_def] using unique
  simpa [PriorityQueue.items, Function.comp_def] using pushed.map Prod.fst

/-- Whatever room there is, the restored queue holds entries of the batch and
of the queue before, and the rest of them is lost to it. -/
theorem restoreEntries_spec {layout : QueueLayout} {maxQueueSize : Nat}
    {entries restoredEntries restored : List BatchQueueEntry} {queue final : BatchQueue}
    (ran : restoreEntries layout maxQueueSize entries restoredEntries queue =
      some (final, restored)) :
    ∃ lost, (entries ++ queue.items).Perm (lost ++ final.items) := by
  induction entries generalizing restoredEntries queue with
  | nil =>
      cases ran
      exact ⟨[], .refl _⟩
  | cons entry rest induction =>
      rw [restoreEntries] at ran
      have pushed : restoreEntries layout maxQueueSize rest (restoredEntries ++ [entry])
            (queue.push entry entry.priority) = some (final, restored) →
          ∃ lost, (entry :: rest ++ queue.items).Perm (lost ++ final.items) := by
        intro ranRest
        obtain ⟨lost, permutation⟩ := induction ranRest
        obtain ⟨dropped, moved, -⟩ := items_push_spec queue entry entry.priority
        refine ⟨dropped ++ lost, ?_⟩
        apply List.perm_middle.symm.trans ((moved.append_left rest).trans _)
        rw [List.append_assoc, ← List.append_assoc]
        apply (List.perm_append_comm.append_right _).trans
        rw [List.append_assoc]
        exact permutation.append_left dropped
      split at ran
      · split at ran
        · exact pushed ran
        · split at ran
          · cases ran
          · obtain ⟨lost, permutation⟩ := induction ran
            exact ⟨entry :: lost, permutation.cons entry⟩
      · exact pushed ran

/-- A restoration ends the work on the batch, but for the users to update. -/
theorem restore_eq_some {layout : QueueLayout} {maxQueueSize : Nat} {batch : InFlight}
    {shared restored : Shared}
    (ran : shared.restore layout maxQueueSize batch = some restored) :
    ∃ queue users lost,
      restored =
        { shared with
          batchQueue := queue
          batch := some (batch, .restored users)
          restored := shared.restored ++ [batch.number] } ∧
      (batch.entries ++ shared.batchQueue.items).Perm (lost ++ queue.items) := by
  obtain ⟨⟨queue, restoredEntries⟩, entries, rfl⟩ := Option.map_eq_some_iff.mp ran
  obtain ⟨lost, permutation⟩ := restoreEntries_spec entries
  exact ⟨queue, _, lost, rfl, permutation⟩

/-! ## Answering the clients -/

/-- With a connection for every entry, the responses reach all of them. -/
theorem inclusionResponses_eq {serializationFails : Nat → Bool}
    {entries : List (Nat × BatchQueueEntry)}
    (answerable : ∀ indexed ∈ entries,
      serializationFails indexed.1 = false ∧ indexed.2.messagingSink.isSome = true) :
    inclusionResponses serializationFails entries =
      (entries.map fun indexed =>
        ⟨indexed.2, .batchInclusionData indexed.1 indexed.2.nonce⟩, true) := by
  induction entries with
  | nil => rfl
  | cons indexed rest induction =>
      obtain ⟨serializes, sink⟩ := answerable indexed List.mem_cons_self
      have answered := induction fun other member =>
        answerable other (List.mem_cons_of_mem _ member)
      simp [inclusionResponses, serializes, Option.isNone_iff_eq_none,
        Option.isSome_iff_ne_none.mp sink, answered]

/-- Answers that do not fail end the work on the batch. -/
theorem respond_eq {serializationFails : Nat → Bool} {batch : InFlight} {shared : Shared}
    (serializes : ∀ index < batch.entries.length, serializationFails index = false)
    (connected : ∀ entry ∈ batch.entries, entry.messagingSink.isSome = true) :
    shared.respond serializationFails batch =
      { shared with
        notices := shared.notices ++ (numbered batch.entries).reverse.map fun indexed =>
          ⟨indexed.2, .batchInclusionData indexed.1 indexed.2.nonce⟩
        batch := none } := by
  have answered := @inclusionResponses_eq serializationFails (numbered batch.entries).reverse (by
    intro indexed member
    obtain ⟨indexMember, entryMember⟩ := List.of_mem_zip (List.mem_reverse.mp member)
    exact ⟨serializes _ (List.mem_range.mp indexMember), connected _ entryMember⟩)
  rw [respond, answered]
  rfl

@[simp] theorem afterFlush_chain (origin : FlushOrigin) (shared : Shared) :
    (shared.afterFlush origin).chain = shared.chain := by
  cases origin with
  | disabledVerifiers => rfl
  | insufficientBalance =>
      rw [afterFlush]
      cases shared.batch with
      | none => rfl
      | some work => rfl

end Shared

/-- At the start nothing is queued or in flight. -/
theorem Shared.initial_eq (config : Config) (chain : Chain) :
    ∃ userStates cells nextRef, Shared.initial config chain =
      { Shared.empty chain with
        userStates := userStates
        cells := cells
        nextRef := nextRef } := by
  rw [Shared.initial]
  cases config.nonpayingReplacementAddr with
  | none => exact ⟨_, _, _, rfl⟩
  | some address => exact ⟨_, _, _, rfl⟩

section

variable {environment : Environment} {system : System}

@[simp] theorem System.newEntry_key (request : Request) :
    (System.newEntry environment request).key =
      (request.addr, request.noncedVerificationData.nonce) := rfl

theorem System.replacementEntry_key {request : Request} {original : BatchQueueEntry}
    (stored : BatchState.getEntry system.shared.batchQueue request.addr
      request.noncedVerificationData.nonce = some original) :
    (System.replacementEntry environment request original).key = original.key := by
  have same := (BatchState.getEntry_eq_some stored).2
  have sender : original.sender = request.addr := congrArg Prod.fst same
  rw [same, ← sender]
  rfl

end

/-- A handler that holds the lock of its sender's state evicts somebody else. -/
theorem Owned.evicts_other {system : System} {task : TaskId} {layout : QueueLayout}
    {request : Request} {ref evictedRef : Ref} {balance fee : Nat} {target : BatchQueueEntry}
    (owned : Owned system)
    (running : system.handlers task = some (request, .enqueue ref balance))
    (current : system.shared.userStates request.addr = some ref)
    (found : system.shared.evictionTarget layout system.locks fee = some (evictedRef, target)) :
    request.addr ≠ target.sender := by
  intro same
  have held := (owned.relies _ _ _ running).2.1
  obtain ⟨present, free, -⟩ := Shared.evictionTarget_eq_some found
  rw [← same, current, Option.some.injEq] at present
  rw [← present, held] at free
  cases free

/-- A batch in flight was in flight before, or has just been extracted. -/
theorem Change.batch_origin {environment : Environment} {config : Config} {system : System}
    {label : Label} {after : Shared} {batch : InFlight} {stage : Stage}
    (change : Change environment config system label after)
    (current : after.batch = some (batch, stage)) :
    (∃ earlier, system.shared.batch = some (batch, earlier)) ∨
      ∃ gasPrice,
        Nonempty (Extracted (config.extractionLimits gasPrice) system.shared.batchQueue
          batch.entries after.batchQueue) ∧
        batch.call = config.createNewTaskCall environment.keccak
          (environment.merkleRoot (batch.entries.map BatchQueueEntry.verificationDataCommitment))
          batch.entries gasPrice := by
  have same : ∀ {middle : Shared}, middle.batch = system.shared.batch →
      middle.batch = some (batch, stage) →
      ∃ earlier, system.shared.batch = some (batch, earlier) := by
    intro middle unchanged found
    exact ⟨stage, unchanged ▸ found⟩
  have entered : ∀ {middle : Shared} {other : InFlight} {earlier next : Stage},
      system.shared.batch = some (other, earlier) →
      (middle.enter other next).batch = some (batch, stage) →
      ∃ earlier, system.shared.batch = some (batch, earlier) := by
    intro middle other earlier next found entering
    simp only [Shared.enter, Option.some.injEq, Prod.mk.injEq] at entering
    obtain ⟨rfl, -⟩ := entering
    exact ⟨earlier, found⟩
  have flushed : ∀ {middle : Shared} {origin : FlushOrigin},
      middle.batch = system.shared.batch →
      (middle.afterFlush origin).batch = some (batch, stage) →
      ∃ earlier, system.shared.batch = some (batch, earlier) := by
    intro middle origin unchanged found
    cases origin with
    | disabledVerifiers => exact same unchanged found
    | insufficientBalance =>
        rw [Shared.afterFlush] at found
        cases work : middle.batch with
        | none =>
            simp only [work, reduceCtorEq] at found
        | some other =>
            simp only [work] at found
            cases found
  cases change with
  | evict running full found removed =>
      obtain ⟨userStates, cells, rfl⟩ := Shared.evict_eq_ok removed
      exact .inl (same rfl current)
  | evictPanics running full found removed =>
      obtain ⟨userStates, cells, rfl⟩ := Shared.evict_eq_error removed
      exact .inl (same rfl current)
  | @extract layout gasPrice blockNumber idle =>
      rcases Shared.extract_cases environment config layout
        (gasPrice * gasPricePercentageMultiplier / percentageDivider) blockNumber system.shared
        with ⟨rest, -, equation⟩ | ⟨entries, rest, extracted, equation⟩
      · rw [equation] at current
        exact .inl (same rfl current)
      · rw [equation] at current ⊢
        simp only [Option.some.injEq, Prod.mk.injEq] at current
        obtain ⟨rfl, -⟩ := current
        exact .inr ⟨_, extracted, rfl⟩
  | advance found unsent later => exact .inl (entered found current)
  | send labelled found unsent answered => exact .inl (entered found current)
  | giveUpWaiting found => exact .inl (entered found current)
  | endCancel found => exact .inl (entered found current)
  | receipt found included => exact .inl (entered found current)
  | updateUser found member free => exact .inl (entered found current)
  | updateRestoredUser found member free => exact .inl (entered found current)
  | cleanupUser found free => exact .inl (entered found current)
  | close found closed updated later => exact .inl (entered found current)
  | endRestored found => cases current
  | respond found =>
      simp only [Shared.respond] at current
      split at current
      · cases current
      · simp only [Option.some.injEq, Prod.mk.injEq] at current
        obtain ⟨rfl, -⟩ := current
        exact .inl ⟨_, found⟩
  | restore found ran =>
      obtain ⟨queue, users, lost, rfl, -⟩ := Shared.restore_eq_some ran
      simp only [Option.some.injEq, Prod.mk.injEq] at current
      obtain ⟨rfl, -⟩ := current
      exact .inl ⟨_, found⟩
  | flushAndReset labelled flushing => exact .inl (flushed (by rfl) current)
  | insertNonpaying flushing configured => exact .inl (flushed (by rfl) current)
  | _ => exact .inl (same rfl current)

theorem Change.batch_cases {environment : Environment} {config : Config} {system : System}
    {label : Label} {after : Shared} {batch : InFlight} {stage : Stage}
    (change : Change environment config system label after)
    (current : after.batch = some (batch, stage)) :
    (∃ earlier, system.shared.batch = some (batch, earlier)) ∨
      ∃ gasPrice root,
        Nonempty (Extracted (config.extractionLimits gasPrice) system.shared.batchQueue
          batch.entries after.batchQueue) ∧
        batch.call = config.createNewTaskCall environment.keccak root batch.entries gasPrice := by
  rcases change.batch_origin current with before | ⟨gasPrice, extracted, call⟩
  · exact .inl before
  · exact .inr ⟨gasPrice, _, extracted, call⟩

end AlignedLayer
