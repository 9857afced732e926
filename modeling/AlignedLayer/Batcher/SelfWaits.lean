import AlignedLayer.Batcher.Admission
import AlignedLayer.Batcher.Restoration
import AlignedLayer.Library.Locks

/-!
# Tasks that wait for themselves

None of the locks of the batcher is reentrant.  While it evicts an entry the
handler of a proof holds `user_states` for reading, up to the end of the
`if let` that finds the user, and the restoration of a failed batch holds it
for writing.  The update of an evicted user without other entries takes it for
writing again.
-/

namespace AlignedLayer

inductive Lock where
  | userStates
  | user (ref : Ref)
  | batchState
  | lastUploadedBatchBlock
  | postingBatch
  | disabledVerifiers
  deriving DecidableEq

namespace SelfWaits

open Locking

/-! ## The eviction for an incoming proof -/

/-- What the loop finds at each turn for an address: the user state, and
whether no other task holds its lock. -/
abbrev Lookups := Nat → Address → Option (Ref × Bool)

section Eviction

variable (layout : QueueLayout) (lookups : Lookups) (newProofFee : Nat) (queue : BatchQueue)

/-- `update_evicted_user_state_with_lock`; `queue` is what is left. -/
def updateEvictedUserStateWithLock (queue : BatchQueue) (sender : Address) : Locking Lock Unit :=
  match Shared.lastEntryOf layout queue sender with
  | some _ => pure ()
  | none => holding (.write .userStates) (pure ())

/-- Removes the first entry of the candidate that is outbid. -/
def evictFirstEntry (candidate : Address) : Locking Lock (Option BatchQueueEntry) :=
  match ((queue.iter layout).map Prod.fst).find? fun entry =>
      entry.sender = candidate && newProofFee > entry.maxFee with
  | none => pure none
  | some target => do
      updateEvictedUserStateWithLock layout (queue.erase target.key) target.sender
      pure (some target)

/-- The body of the `if let` for a candidate. -/
def evictFrom (candidate : Address) :
    Option (Ref × Bool) → Locking Lock (Option BatchQueueEntry)
  | none => pure none
  | some (ref, free) =>
      tryHolding (.write (.user ref)) free (evictFirstEntry layout newProofFee queue candidate)

/-- The loop over the candidates.  The guard of the scrutinee lives as long as
the body of the `if let`. -/
def evictionLoop : Nat → List Address → Locking Lock (Option BatchQueueEntry)
  | _, [] => pure none
  | turn, candidate :: rest => do
      let removed ← holding (.read .userStates)
        (evictFrom layout newProofFee queue candidate (lookups turn candidate))
      match removed with
      | some removed => pure (some removed)
      | none => evictionLoop (turn + 1) rest

/-- The branch of `handle_submit_proof_msg` for a full queue. -/
def evictionBranch (maxQueueSize : Nat) : Locking Lock (Option BatchQueueEntry) :=
  if BatchState.isQueueFull maxQueueSize queue then
    evictionLoop layout lookups newProofFee queue 0
      ((((queue.iter layout).map Prod.fst).filter fun entry =>
        newProofFee > entry.maxFee).map BatchQueueEntry.sender)
  else
    pure none

end Eviction

/-! ## The restoration of a failed batch -/

section Restoration

variable (layout : QueueLayout) (lookups : Nat → Address → Option Ref)

/-- `update_evicted_user_state_async`; `queue` is what is left. -/
def updateEvictedUserStateAsync (turn : Nat) (queue : BatchQueue) (sender : Address) :
    Locking Lock Unit :=
  match Shared.lastEntryOf layout queue sender with
  | none => holding (.write .userStates) (pure ())
  | some _ => do
      let userState ← holding (.read .userStates) (pure (lookups turn sender))
      match userState with
      | none => pure ()
      | some ref => holding (.write (.user ref)) (pure ())

def restoreLoop (maxQueueSize : Nat) :
    Nat → List BatchQueueEntry → List BatchQueueEntry → BatchQueue →
      Locking Lock (BatchQueue × List BatchQueueEntry)
  | _, [], restoredEntries, queue => pure (queue, restoredEntries)
  | turn, entry :: rest, restoredEntries, queue =>
      if BatchState.isQueueFull maxQueueSize queue then
        match queue.peek layout with
        | none =>
            restoreLoop maxQueueSize (turn + 1) rest (restoredEntries ++ [entry])
              (queue.push entry entry.priority)
        | some lowest =>
            if entry.maxFee > lowest.1.maxFee then do
              let left := queue.erase lowest.1.key
              updateEvictedUserStateAsync layout lookups turn left lowest.1.sender
              restoreLoop maxQueueSize (turn + 1) rest (restoredEntries ++ [entry])
                (left.push entry entry.priority)
            else
              restoreLoop maxQueueSize (turn + 1) rest restoredEntries queue
      else
        restoreLoop maxQueueSize (turn + 1) rest (restoredEntries ++ [entry])
          (queue.push entry entry.priority)

/-- `update_user_states_from_queue_state`. -/
def updateUserStatesFromQueueState : Nat → List Address → Locking Lock Unit
  | _, [] => pure ()
  | turn, address :: rest => do
      holding (.read .userStates)
        (match lookups turn address with
          | none => pure ()
          | some ref =>
              holding (.write (.user ref)) (holding (.write .batchState) (pure ())))
      updateUserStatesFromQueueState (turn + 1) rest

/-- `restore_proofs_after_batch_failure`; `updates` is what the update of the
users finds. -/
def restoreProofsAfterBatchFailure (updates : Nat → Address → Option Ref) (maxQueueSize : Nat)
    (failedBatch : List BatchQueueEntry) (queue : BatchQueue) : Locking Lock Unit := do
  acquire (.write .userStates)
  acquire (.write .batchState)
  let (_, restoredEntries) ← restoreLoop layout lookups maxQueueSize 0 failedBatch [] queue
  release (.write .userStates)
  release (.write .batchState)
  updateUserStatesFromQueueState updates 0 (sendersOf restoredEntries)

end Restoration

/-! ## When the eviction is safe -/

/-- Every user state the loop finds with a free lock is an attainable one. -/
def Lookups.Within (lookups : Lookups) (attainable : Address → Ref → Prop) : Prop :=
  ∀ turn address ref, lookups turn address = some (ref, true) → attainable address ref

def HasAnother (queue : BatchQueue) (entry : BatchQueueEntry) : Prop :=
  ∃ other ∈ queue.items, other.sender = entry.sender ∧ other.nonce ≠ entry.nonce

/-- No entry that can be evicted is the only one of its sender. -/
def EvictsSafely (newProofFee maxQueueSize : Nat) (ownRef : Ref)
    (attainable : Address → Ref → Prop) (queue : BatchQueue) : Prop :=
  BatchState.isQueueFull maxQueueSize queue = true → ∀ entry ∈ queue.items,
    entry.maxFee < newProofFee → ∀ ref ≠ ownRef, attainable entry.sender ref →
      HasAnother queue entry

theorem lastEntryOf_erase_of_another {layout : QueueLayout} {queue : BatchQueue}
    {entry : BatchQueueEntry} (another : HasAnother queue entry) :
    ∃ last, Shared.lastEntryOf layout (queue.erase entry.key) entry.sender = some last := by
  obtain ⟨other, queued, sender, different⟩ := another
  obtain ⟨priority, stored⟩ := PriorityQueue.mem_items.mp queued
  have remains : other ∈ (queue.erase entry.key).items := by
    apply PriorityQueue.mem_items.mpr
    refine ⟨priority, PriorityQueue.mem_erase.mpr ⟨stored, ?_⟩⟩
    intro same
    exact different (congrArg Prod.snd same)
  rw [← sender]
  exact Shared.lastEntryOf_of_mem remains

theorem another_of_lastEntryOf_erase {layout : QueueLayout} {queue : BatchQueue}
    {entry last : BatchQueueEntry}
    (found : Shared.lastEntryOf layout (queue.erase entry.key) entry.sender = some last) :
    HasAnother queue entry := by
  obtain ⟨remains, sender⟩ := Shared.lastEntryOf_eq_some found
  obtain ⟨priority, stored⟩ := PriorityQueue.mem_items.mp remains
  obtain ⟨queued, different⟩ := PriorityQueue.mem_erase.mp stored
  refine ⟨last, PriorityQueue.mem_items.mpr ⟨priority, queued⟩, sender, ?_⟩
  intro same
  exact different (Prod.ext sender same)

section Eviction

variable {layout : QueueLayout} {lookups : Lookups} {newProofFee maxQueueSize : Nat}
  {queue : BatchQueue} {ownRef : Ref} {attainable : Address → Ref → Prop}

/-- The guards of a handler when it meets a full queue. -/
def handlerGuards (ownRef : Ref) : List (Guard Lock) :=
  [.write .batchState, .write (.user ownRef)]

theorem returns_evictFirstEntry {candidate : Address} {held : List (Guard Lock)}
    (safe : ∀ entry ∈ queue.items, entry.sender = candidate → entry.maxFee < newProofFee →
      HasAnother queue entry) :
    (evictFirstEntry layout newProofFee queue candidate).Returns held := by
  rw [evictFirstEntry]
  split
  · exact returns_pure none
  · rename_i target found
    have passes := List.find?_some found
    rw [Bool.and_eq_true, decide_eq_true_eq, decide_eq_true_eq] at passes
    have queued : target ∈ queue.items :=
      ((layout.iter_perm queue.entries).map Prod.fst).mem_iff.mp (List.mem_of_find?_eq_some found)
    obtain ⟨last, remains⟩ :=
      @lastEntryOf_erase_of_another layout _ _ (safe target queued passes.1 passes.2)
    apply Returns.bind
    · rw [updateEvictedUserStateWithLock, remains]
      exact returns_pure ()
    · intro
      exact returns_pure (some target)

theorem returns_evictionLoop (within : lookups.Within attainable)
    (safe : ∀ entry ∈ queue.items, entry.maxFee < newProofFee → ∀ ref ≠ ownRef,
      attainable entry.sender ref → HasAnother queue entry)
    (turn : Nat) (candidates : List Address) :
    (evictionLoop layout lookups newProofFee queue turn candidates).Returns
      (handlerGuards ownRef) := by
  induction candidates generalizing turn with
  | nil => exact returns_pure none
  | cons candidate rest induction =>
      rw [evictionLoop]
      apply Returns.bind
      · apply Returns.holding
        · simp [handlerGuards, Guard.Conflicts, Guard.read, Guard.write]
        · cases found : lookups turn candidate with
          | none => exact returns_pure none
          | some userState =>
              apply Returns.tryHolding
              intro free isFree
              have foreign : userState.1 ≠ ownRef := by
                intro own
                apply isFree
                simp [own, handlerGuards, Guard.Conflicts, Guard.read, Guard.write]
              have reached : attainable candidate userState.1 :=
                within turn candidate _ (found.trans (by rw [← free]))
              apply returns_evictFirstEntry
              intro entry queued sender outbid
              exact safe entry queued outbid _ foreign (sender ▸ reached)
      · intro removed
        cases removed with
        | none => exact induction (turn + 1)
        | some removed => exact returns_pure (some removed)

/-- An entry without another one of its sender stops the loop that finds it
first. -/
theorem evictionBranch_waits {entry : BatchQueueEntry} {ref : Ref}
    (full : BatchState.isQueueFull maxQueueSize queue = true) (queued : entry ∈ queue.items)
    (outbid : entry.maxFee < newProofFee) (foreign : ref ≠ ownRef)
    (alone : ¬ HasAnother queue entry)
    (present : lookups 0 entry.sender = some (ref, true)) :
    (evictionBranch (Layout.first fun stored => stored.1 = entry) lookups newProofFee queue
      maxQueueSize).WaitsForItself (handlerGuards ownRef) := by
  obtain ⟨priority, member⟩ := PriorityQueue.mem_items.mp queued
  obtain ⟨head, tail, first, isEntry⟩ := @Layout.first_iter _
    (fun stored : BatchQueueEntry × BatchQueueEntryPriority => stored.1 = entry) _ _ member
    (decide_eq_true rfl)
  have ahead : (queue.iter (Layout.first fun stored => stored.1 = entry)).map Prod.fst =
      entry :: tail.map Prod.fst := by
    rw [PriorityQueue.iter, first, List.map_cons, of_decide_eq_true isEntry]
  have nobody : Shared.lastEntryOf (Layout.first fun stored => stored.1 = entry)
      (queue.erase entry.key) entry.sender = none := by
    by_contra remains
    obtain ⟨last, found⟩ := Option.ne_none_iff_exists'.mp remains
    exact alone (another_of_lastEntryOf_erase found)
  rw [evictionBranch, if_pos full, ahead, List.filter_cons_of_pos (by simpa using outbid),
    List.map_cons, evictionLoop, present]
  apply WaitsForItself.bind
  apply WaitsForItself.holding
  · simp [handlerGuards, Guard.Conflicts, Guard.read, Guard.write]
  · apply WaitsForItself.tryHolding
    · simp [handlerGuards, Guard.Conflicts, Guard.read, Guard.write, foreign.symm]
    · rw [evictFirstEntry, ahead, List.find?_cons_of_pos (by simpa using outbid)]
      apply WaitsForItself.bind
      rw [updateEvictedUserStateWithLock, nobody]
      -- the guard that found the user is still there
      apply waits_holding
      simp [Guard.Conflicts, Guard.read, Guard.write]

theorem eviction_iff : (∀ layout lookups, Lookups.Within lookups attainable →
      ¬ (evictionBranch layout lookups newProofFee queue maxQueueSize).WaitsForItself
        (handlerGuards ownRef)) ↔
    EvictsSafely newProofFee maxQueueSize ownRef attainable queue := by
  constructor
  · intro neverWaits full entry queued outbid ref foreign reached
    by_contra alone
    apply neverWaits (Layout.first fun stored => stored.1 = entry)
      (fun _ address => if address = entry.sender then some (ref, true) else none)
    · intro turn address found foundRef
      dsimp only at foundRef
      split at foundRef
      · rename_i same
        cases foundRef
        exact same ▸ reached
      · cases foundRef
    · exact evictionBranch_waits full queued outbid foreign alone (if_pos rfl)
  · intro safe layout lookups within
    rw [evictionBranch]
    split
    · rename_i full
      exact (returns_evictionLoop within (safe full) 0 _).not_waits
    · exact (returns_pure none).not_waits

/-! ### The entry that is evicted -/

/-- What the loop finds while nobody else touches the user states. -/
def steadyLookups (shared : Shared) (locks : Ref → Option TaskId) : Lookups := fun _ address =>
  (shared.userStates address).map fun ref => (ref, (locks ref).isNone)

section Steady

variable {shared : Shared} {locks : Ref → Option TaskId} {candidate : Address}

theorem evictFirstEntry_eq (held : List (Guard Lock)) :
    (evictFirstEntry layout newProofFee queue candidate).WaitsForItself held ∨
      evictFirstEntry layout newProofFee queue candidate held =
        .ok (((queue.iter layout).map Prod.fst).find? fun entry =>
          entry.sender = candidate && newProofFee > entry.maxFee, held) := by
  rw [evictFirstEntry]
  cases ((queue.iter layout).map Prod.fst).find? fun entry =>
      entry.sender = candidate && newProofFee > entry.maxFee with
  | none => exact .inr rfl
  | some target =>
      dsimp only
      rw [updateEvictedUserStateWithLock]
      cases Shared.lastEntryOf layout (queue.erase target.key) target.sender with
      | some last => exact .inr rfl
      | none =>
          by_cases blocked : Guard.Blocks held (.write .userStates)
          · exact .inl (waits_holding blocked).bind
          · right
            obtain ⟨result, ran⟩ := Returns.holding blocked (returns_pure ())
            exact bind_of_ok ran

theorem evictFrom_eq (own : locks ownRef ≠ none) (turn : Nat) :
    (evictFrom layout newProofFee shared.batchQueue candidate
        (steadyLookups shared locks turn candidate)).WaitsForItself
          (.read .userStates :: handlerGuards ownRef) ∨
      evictFrom layout newProofFee shared.batchQueue candidate
          (steadyLookups shared locks turn candidate) (.read .userStates :: handlerGuards ownRef) =
        .ok ((shared.evictionTargetOf layout locks newProofFee candidate).map Prod.snd,
          .read .userStates :: handlerGuards ownRef) := by
  rw [steadyLookups, Shared.evictionTargetOf]
  cases shared.userStates candidate with
  | none => exact .inr rfl
  | some ref =>
      rw [Option.map_some, evictFrom]
      dsimp only
      by_cases isFree : locks ref = none
      · have foreign : ref ≠ ownRef := by
          rintro rfl
          exact own isFree
        have unblocked : ¬ Guard.Blocks (.read .userStates :: handlerGuards ownRef)
            (.write (.user ref)) := by
          simp [handlerGuards, Guard.Conflicts, Guard.read, Guard.write, foreign.symm]
        rw [if_pos isFree, isFree, Option.isNone_none, Option.map_map]
        rcases @evictFirstEntry_eq layout newProofFee shared.batchQueue candidate
          (.write (.user ref) :: .read .userStates :: handlerGuards ownRef) with waits | ends
        · exact .inl (waits.tryHolding unblocked)
        · right
          rw [tryHolding_ok unblocked ends]
          simp [Function.comp_def]
      · right
        have busy : (locks ref).isNone = false :=
          Option.isNone_eq_false_iff.mpr (Option.isSome_iff_ne_none.mpr isFree)
        rw [if_neg isFree, busy]
        exact bind_of_ok (tryAcquire_of_busy (by simp))

/-- Where the loop ends, it has evicted the target of the full queue. -/
theorem evictionLoop_eq (own : locks ownRef ≠ none) (turn : Nat) (candidates : List Address) :
    (evictionLoop layout (steadyLookups shared locks) newProofFee shared.batchQueue turn
        candidates).WaitsForItself (handlerGuards ownRef) ∨
      evictionLoop layout (steadyLookups shared locks) newProofFee shared.batchQueue turn
          candidates (handlerGuards ownRef) =
        .ok ((candidates.findSome? (shared.evictionTargetOf layout locks newProofFee)).map
          Prod.snd, handlerGuards ownRef) := by
  have isFree : ¬ Guard.Blocks (handlerGuards ownRef) (.read .userStates) := by
    simp [handlerGuards, Guard.Conflicts, Guard.read, Guard.write]
  induction candidates generalizing turn with
  | nil => exact .inr rfl
  | cons candidate rest induction =>
      rw [evictionLoop]
      rcases @evictFrom_eq layout newProofFee ownRef shared locks candidate own turn with
        waits | ends
      · exact .inl (waits.holding isFree).bind
      · rw [WaitsForItself, bind_of_ok (holding_ok isFree ends), List.findSome?_cons]
        cases shared.evictionTargetOf layout locks newProofFee candidate with
        | none => exact induction (turn + 1)
        | some target => exact .inr rfl

/-- The branch waits for itself, or evicts what the handler of the machine
evicts. -/
theorem evictionBranch_eq (full : BatchState.isQueueFull maxQueueSize shared.batchQueue = true)
    (own : locks ownRef ≠ none) :
    (evictionBranch layout (steadyLookups shared locks) newProofFee shared.batchQueue
        maxQueueSize).WaitsForItself (handlerGuards ownRef) ∨
      evictionBranch layout (steadyLookups shared locks) newProofFee shared.batchQueue
          maxQueueSize (handlerGuards ownRef) =
        .ok ((shared.evictionTarget layout locks newProofFee).map Prod.snd,
          handlerGuards ownRef) := by
  rw [evictionBranch, if_pos full]
  exact evictionLoop_eq own 0 _

end Steady

end Eviction

/-! ## When the restoration is safe -/

section Restoration

variable {layout : QueueLayout} {lookups updates : Nat → Address → Option Ref}
  {maxQueueSize : Nat} {queue : BatchQueue} {failedBatch : List BatchQueueEntry}

/-- The loop waits for itself where `restoreEntries` has no answer. -/
theorem restoreLoop_spec {held : List (Guard Lock)}
    (blocked : ∀ access, Guard.Blocks held ⟨.userStates, access⟩) (turn : Nat)
    (entries restoredEntries : List BatchQueueEntry) (queue : BatchQueue) :
    match Shared.restoreEntries layout maxQueueSize entries restoredEntries queue with
    | some restored => restoreLoop layout lookups maxQueueSize turn entries restoredEntries queue
        held = .ok (restored, held)
    | none => (restoreLoop layout lookups maxQueueSize turn entries restoredEntries
        queue).WaitsForItself held := by
  induction entries generalizing turn restoredEntries queue with
  | nil => rfl
  | cons entry rest induction =>
      rw [Shared.restoreEntries, restoreLoop]
      split_ifs with full
      · cases queue.peek layout with
        | none => exact induction _ _ _
        | some lowest =>
            dsimp only
            split_ifs with outbids
            · apply WaitsForItself.bind
              rw [updateEvictedUserStateAsync]
              split
              · exact waits_holding (blocked .write)
              · exact (waits_holding (blocked .read)).bind
            · exact induction _ _ _
      · exact induction _ _ _

theorem returns_updateUserStates (turn : Nat) (users : List Address) :
    (updateUserStatesFromQueueState updates turn users).Returns [.write .postingBatch] := by
  induction users generalizing turn with
  | nil => exact returns_pure ()
  | cons address rest induction =>
      rw [updateUserStatesFromQueueState]
      apply Returns.bind
      · apply Returns.holding
        · simp [Guard.Conflicts, Guard.read, Guard.write]
        · cases updates turn address with
          | none => exact returns_pure ()
          | some ref =>
              apply Returns.holding
              · simp [Guard.Conflicts, Guard.read, Guard.write]
              · apply Returns.holding
                · simp [Guard.Conflicts, Guard.read, Guard.write]
                · exact returns_pure ()
      · intro
        exact induction (turn + 1)

/-- No entry that is left once the queue is full outbids the lowest one. -/
def RestoresSafely (layout : QueueLayout) (maxQueueSize : Nat)
    (failedBatch : List BatchQueueEntry) (queue : BatchQueue) : Prop :=
  ∀ entry ∈ failedBatch.drop (Shared.placed maxQueueSize failedBatch queue).length,
    ∀ lowest ∈ (Shared.queueWith (Shared.placed maxQueueSize failedBatch queue) queue).peek
      layout, entry.maxFee ≤ lowest.1.maxFee

theorem waits_iff_restoreEntries :
    (restoreProofsAfterBatchFailure layout lookups updates maxQueueSize failedBatch
      queue).WaitsForItself [.write .postingBatch] ↔
    Shared.restoreEntries layout maxQueueSize failedBatch [] queue = none := by
  have enters : restoreProofsAfterBatchFailure layout lookups updates maxQueueSize failedBatch
      queue [.write .postingBatch] = _ :=
    bind_of_ok (acquire_of_free (by simp [Guard.Conflicts, Guard.write]))
  rw [bind_of_ok (acquire_of_free (by simp [Guard.Conflicts, Guard.write]))] at enters
  have spec := @restoreLoop_spec layout lookups maxQueueSize
    [.write .batchState, .write .userStates, .write .postingBatch]
    (by simp [Guard.Conflicts, Guard.write]) 0 failedBatch [] queue
  rw [WaitsForItself, enters]
  cases ends : Shared.restoreEntries layout maxQueueSize failedBatch [] queue with
  | none =>
      rw [ends] at spec
      obtain ⟨wanted, stuck⟩ := spec
      exact ⟨fun _ => rfl, fun _ => ⟨wanted, bind_of_error stuck⟩⟩
  | some restored =>
      rw [ends] at spec
      obtain ⟨final, returned⟩ :=
        @returns_updateUserStates updates 0 (sendersOf restored.2)
      constructor
      · rintro ⟨wanted, stuck⟩
        rw [bind_of_ok spec] at stuck
        have continues := returned.symm.trans stuck
        cases continues
      · intro impossible
        cases impossible

theorem restoration_iff : ¬ (restoreProofsAfterBatchFailure layout lookups updates maxQueueSize
      failedBatch queue).WaitsForItself [.write .postingBatch] ↔
    RestoresSafely layout maxQueueSize failedBatch queue := by
  rw [waits_iff_restoreEntries, ← Ne, Option.ne_none_iff_exists']
  constructor
  · rintro ⟨restored, ends⟩
    exact (Shared.restoreEntries_eq_some_iff.mp ends).2
  · intro safe
    exact ⟨_, Shared.restoreEntries_eq_some_iff.mpr ⟨⟨rfl, rfl⟩, safe⟩⟩

end Restoration

/-- Whatever the other tasks do meanwhile, the eviction for a proof does not
wait for its own locks exactly if no attainable user loses its only entry, and
the restoration exactly if it evicts nothing. -/
theorem never_waits_for_itself_iff (newProofFee maxQueueSize : Nat) (ownRef : Ref)
    (attainable : Address → Ref → Prop) (queue restoring : BatchQueue)
    (failedBatch : List BatchQueueEntry) :
    ((∀ layout lookups, Lookups.Within lookups attainable →
        ¬ (evictionBranch layout lookups newProofFee queue maxQueueSize).WaitsForItself
          (handlerGuards ownRef)) ↔
      EvictsSafely newProofFee maxQueueSize ownRef attainable queue) ∧
    ∀ layout lookups updates,
      ¬ (restoreProofsAfterBatchFailure layout lookups updates maxQueueSize failedBatch
          restoring).WaitsForItself [.write .postingBatch] ↔
        RestoresSafely layout maxQueueSize failedBatch restoring :=
  ⟨eviction_iff, fun _ _ _ => restoration_iff⟩

/-- A full queue of one entry, and a proof, incoming or restored, that pays more. -/
theorem outbid_lone_entry_waits :
    (evictionBranch (Layout.insertion _) (fun _ _ => some (1, true)) 200000
      Sample.singleEntryQueue 1).WaitsForItself (handlerGuards 0) ∧
    (restoreProofsAfterBatchFailure (Layout.insertion _) (fun _ _ => none) (fun _ _ => none) 1
      [Sample.entry 2 0 200000] Sample.singleEntryQueue).WaitsForItself
        [.write .postingBatch] :=
  ⟨⟨.write .userStates, by decide +kernel⟩, ⟨.write .userStates, by decide +kernel⟩⟩

end SelfWaits

end AlignedLayer
