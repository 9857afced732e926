import AlignedLayer.Batcher.Chain
import AlignedLayer.Batcher.UserState

/-!
# The data the tasks of the batcher share

The queue, the cached user states, the batch in flight and the chain, with
every operation that changes them.  A user state lives in a cell, because the
handlers keep an `Arc` to it: a cell stays reachable for the handlers that
hold it after `user_states` has dropped or replaced it.
-/

namespace AlignedLayer

abbrev TaskId := Nat

/-- An `Arc<Mutex<UserState>>`. -/
abbrev Ref := Nat

/-- Where the task that works on a batch stands. -/
inductive Stage where
  | finalizing
  | uploading
  | sending (attempt : Nat)
  | sendingFallback (attempt : Nat)
  | waiting (transaction : Nat)
  | cancelling
  /-- The contract answered that this user cannot pay. -/
  | insufficient (address : Address)
  | updatingUsers (users : List Address)
  | cleaningUsers (users : List Address)
  | responding
  /-- `finalize_batch` returned an error other than a flush. -/
  | failed
  | restored (users : List Address)
  deriving DecidableEq

/-- The stages from which the entries may still go back to the queue. -/
def Stage.isOpen : Stage → Bool
  | .updatingUsers _ | .cleaningUsers _ | .responding | .restored _ => false
  | _ => true

structure InFlight where
  number : Nat
  blockNumber : Nat
  entries : List BatchQueueEntry
  call : BatcherPaymentService.CreateNewTask

/-- A message about a proof, sent on the connection stored with it. -/
structure Notice where
  proof : BatchQueueEntry
  message : SubmitProofResponseMessage
  deriving DecidableEq

structure Shared where
  batchQueue : BatchQueue
  userStates : Address → Option Ref
  cells : Ref → UserState
  nextRef : Ref
  batch : Option (InFlight × Stage)
  batches : Nat
  chain : Chain
  /-- History: every entry that was accepted, every message about an entry,
  and the batches whose entries were put back. -/
  accepted : List BatchQueueEntry
  notices : List Notice
  restored : List Nat

def sendersOf (entries : List BatchQueueEntry) : List Address :=
  (entries.map BatchQueueEntry.sender).dedup

namespace Shared

/-! ## Users and queue -/

def createUser (address : Address) (nonce : Nat) (shared : Shared) : Shared :=
  { shared with
    userStates := Function.update shared.userStates address (some shared.nextRef)
    cells := Function.update shared.cells shared.nextRef (UserState.new nonce)
    nextRef := shared.nextRef + 1 }

/-- Sends `message` for every entry that has a connection. -/
def notify (entries : List BatchQueueEntry) (message : SubmitProofResponseMessage)
    (shared : Shared) : Shared :=
  { shared with
    notices := shared.notices ++
      (entries.filter fun entry => entry.messagingSink.isSome).map fun entry =>
        ⟨entry, message⟩ }

/-- `add_to_batch`, and the update of the user state whose lock is held. -/
def acceptEntry (userStateRef : Ref) (entry : BatchQueueEntry) (shared : Shared) : Shared :=
  { shared with
    batchQueue := shared.batchQueue.push entry entry.priority
    cells := Function.update shared.cells userStateRef
      ((shared.cells userStateRef).addEntry entry.nonce entry.maxFee)
    accepted := shared.accepted ++ [entry] }

/-- The user's last entry in iteration order. -/
def lastEntryOf (layout : QueueLayout) (queue : BatchQueue) (sender : Address) :
    Option BatchQueueEntry :=
  ((((queue.iter layout).map Prod.fst).filter fun entry => entry.sender = sender).getLast?)

/-- `update_evicted_user_state_with_lock`, after `removed` has left the queue.
The error is the state a panic leaves. -/
def updateEvictedUserState (layout : QueueLayout) (removed : BatchQueueEntry)
    (userStateRef : Option Ref) (shared : Shared) : Except Shared Shared :=
  match lastEntryOf layout shared.batchQueue removed.sender, userStateRef with
  | none, _ =>
      .ok { shared with
        userStates := Function.update shared.userStates removed.sender none }
  | some _, none => .ok shared
  | some last, some ref =>
      match (shared.cells ref).evictEntry removed.maxFee last.maxFee with
      | .ok userState =>
          .ok { shared with cells := Function.update shared.cells ref userState }
      | .error userState =>
          .error { shared with cells := Function.update shared.cells ref userState }

/-- The addresses of the entries an incoming proof outbids. -/
def evictionCandidates (layout : QueueLayout) (newProofFee : Nat) (shared : Shared) :
    List Address :=
  (((shared.batchQueue.iter layout).map Prod.fst).filter fun entry =>
    newProofFee > entry.maxFee).map BatchQueueEntry.sender

/-- The first outbid entry of the candidate, if its user state is present and
its lock is free. -/
def evictionTargetOf (layout : QueueLayout) (locks : Ref → Option TaskId) (newProofFee : Nat)
    (shared : Shared) (candidate : Address) : Option (Ref × BatchQueueEntry) :=
  match shared.userStates candidate with
  | none => none
  | some ref =>
      if locks ref = none then
        (((shared.batchQueue.iter layout).map Prod.fst).find? fun entry =>
          entry.sender = candidate && newProofFee > entry.maxFee).map fun entry => (ref, entry)
      else
        none

/-- The entry a full queue gives up for an incoming proof. -/
def evictionTarget (layout : QueueLayout) (locks : Ref → Option TaskId) (newProofFee : Nat)
    (shared : Shared) : Option (Ref × BatchQueueEntry) :=
  (shared.evictionCandidates layout newProofFee).findSome?
    (shared.evictionTargetOf layout locks newProofFee)

/-- Removes the target, updates its user, and tells it. -/
def evict (layout : QueueLayout) (userStateRef : Ref) (target : BatchQueueEntry)
    (shared : Shared) : Except Shared Shared :=
  (updateEvictedUserState layout target (some userStateRef)
    { shared with batchQueue := shared.batchQueue.erase target.key }).map
      (notify [target] .underpricedProof)

/-- The successful end of `handle_replacement_message`. -/
def replaceEntry (userStateRef : Ref) (original replacement : BatchQueueEntry)
    (shared : Shared) : Shared :=
  let queue := (shared.batchQueue.erase replacement.key).push replacement replacement.priority
  { shared with
    batchQueue := queue
    cells := Function.update shared.cells userStateRef
      ((shared.cells userStateRef).replaceEntry
        (BatchState.getUserMinFeeInBatch queue replacement.sender)
        (replacement.maxFee - original.maxFee))
    accepted := shared.accepted ++ [replacement] }

def removeUserProofs (address : Address) (shared : Shared) : Shared :=
  let (removed, queue) := shared.batchQueue.extractIf fun entry => entry.sender = address
  notify (removed.map Prod.fst) .userFundsUnlocked
    { shared with
      batchQueue := queue
      userStates := Function.update shared.userStates address none }

/-- The part of `flush_queue_and_clear_nonce_cache` that ends with the cache
empty. -/
def flush (shared : Shared) : Shared :=
  notify shared.batchQueue.items .batchReset
    { shared with
      batchQueue := PriorityQueue.empty
      userStates := fun _ => none }

/-! ## The batch in flight -/

def extract (environment : Environment) (config : Config) (layout : QueueLayout)
    (gasPrice blockNumber : Nat) (shared : Shared) : Shared :=
  match extractBatchDirectly layout (config.extractionLimits gasPrice) shared.batchQueue with
  | (.error _, rest) => { shared with batchQueue := rest }
  | (.ok entries, rest) =>
      let root := environment.merkleRoot
        (entries.map BatchQueueEntry.verificationDataCommitment)
      { shared with
        batchQueue := rest
        batch := some
          ({ number := shared.batches
             blockNumber := blockNumber
             entries := entries
             call := config.createNewTaskCall environment.keccak root entries gasPrice },
            .finalizing)
        batches := shared.batches + 1 }

def enter (batch : InFlight) (stage : Stage) (shared : Shared) : Shared :=
  { shared with batch := some (batch, stage) }

/-- A transaction for the batch reaches the mempool. -/
def broadcast (batch : InFlight) (shared : Shared) : Shared :=
  { shared with chain := shared.chain.broadcast batch.number batch.entries batch.call }

/-- The stage after `createNewTask` was answered with a revert. -/
def reverted : Revert → Stage
  | .submissionInsufficientBalance sender _ _ => .insufficient sender
  | _ => .failed

/-- `update_user_states_from_queue_state` for one user. -/
def updateUser (layout : QueueLayout) (address : Address) (shared : Shared) : Shared :=
  match shared.userStates address with
  | none => shared
  | some ref =>
      { shared with
        cells := Function.update shared.cells ref
          ((shared.cells ref).updateFromQueue layout shared.batchQueue address) }

/-- `cleanup_user_states_after_successful_submission` for one user whose lock
is free. -/
def cleanupUser (layout : QueueLayout) (address : Address) (shared : Shared) : Shared :=
  match shared.userStates address with
  | none => shared
  | some ref =>
      if (calculateNewUserStatesData layout shared.batchQueue address).isSome then
        shared
      else
        { shared with
          cells := Function.update shared.cells ref
            { shared.cells ref with lastMaxFeeLimit := u256Max } }

/-- The answers `send_batch_inclusion_data_responses` sends, last entry first,
up to the first one that fails, and whether all were sent. -/
def inclusionResponses (serializationFails : Nat → Bool) :
    List (Nat × BatchQueueEntry) → List Notice × Bool
  | [] => ([], true)
  | (index, entry) :: rest =>
      if serializationFails index || entry.messagingSink.isNone then
        ([], false)
      else
        let (notices, finished) := inclusionResponses serializationFails rest
        (⟨entry, .batchInclusionData index entry.nonce⟩ :: notices, finished)

def numbered (entries : List BatchQueueEntry) : List (Nat × BatchQueueEntry) :=
  (List.range entries.length).zip entries

def respond (serializationFails : Nat → Bool) (batch : InFlight) (shared : Shared) : Shared :=
  let (notices, finished) := inclusionResponses serializationFails (numbered batch.entries).reverse
  { shared with
    notices := shared.notices ++ notices
    batch := if finished then none else some (batch, .failed) }

/-- The flush after a user could not pay also resets the batch itself. -/
def resetBatch (batch : InFlight) (shared : Shared) : Shared :=
  notify batch.entries .batchReset { shared with batch := none }

/-- The loop of `restore_proofs_after_batch_failure`: the queue with the
entries that were put back, and these entries.  `none` when an entry outbids
the lowest one of a full queue: the update of the evicted user waits for the
lock of `user_states`, which the task holds itself. -/
def restoreEntries (layout : QueueLayout) (maxQueueSize : Nat) :
    List BatchQueueEntry → List BatchQueueEntry → BatchQueue →
      Option (BatchQueue × List BatchQueueEntry)
  | [], restoredEntries, queue => some (queue, restoredEntries)
  | entry :: rest, restoredEntries, queue =>
      if BatchState.isQueueFull maxQueueSize queue then
        match queue.peek layout with
        | none =>
            restoreEntries layout maxQueueSize rest (restoredEntries ++ [entry])
              (queue.push entry entry.priority)
        | some lowest =>
            if entry.maxFee > lowest.1.maxFee then
              none
            else
              restoreEntries layout maxQueueSize rest restoredEntries queue
      else
        restoreEntries layout maxQueueSize rest (restoredEntries ++ [entry])
          (queue.push entry entry.priority)

def restore (layout : QueueLayout) (maxQueueSize : Nat) (batch : InFlight) (shared : Shared) :
    Option Shared :=
  (restoreEntries layout maxQueueSize batch.entries [] shared.batchQueue).map
    fun (queue, restoredEntries) =>
      { shared with
        batchQueue := queue
        batch := some (batch, .restored (sendersOf restoredEntries))
        restored := shared.restored ++ [batch.number] }

end Shared

end AlignedLayer
