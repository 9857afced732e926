import AlignedLayer.Batcher.SelfWaits
import AlignedLayer.Library.LockPrograms

/-!
# Tasks that wait for each other

What the tasks of the batcher do with the six locks.  The locks are taken in
the order `posting_batch`, `user_states`, user, `disabled_verifiers`,
`batch_state`, except by a task that already holds `batch_state`: the flush and
the eviction then take `user_states`, a batch extraction `posting_batch`, and a
replacement `disabled_verifiers`.

A choice stands for a branch that depends on the queue, the user states or an
answer from outside, and the arguments of a program for the user states that it
finds in the course of its loops.
-/

namespace AlignedLayer

namespace Deadlocks

/-- The shared data is the flag in `posting_batch`. -/
abbrev Program := LockProgram Lock Bool

open LockProgram

def userStatesRead : Guard Lock :=
  .read .userStates

def userStatesWrite : Guard Lock :=
  .write .userStates

def userLock (ref : Ref) : Guard Lock :=
  .write (.user ref)

def batchState : Guard Lock :=
  .write .batchState

def lastUploadedBatchBlock : Guard Lock :=
  .write .lastUploadedBatchBlock

def postingBatch : Guard Lock :=
  .write .postingBatch

def disabledVerifiers : Guard Lock :=
  .write .disabledVerifiers

/-! ## Message handlers -/

/-- The handlers that read the state of a user; `user` is what they find. -/
def readUserState (user : Option Ref) : Program :=
  choose done <|
  lockOrGiveUp userStatesRead done <|
  match user with
  | none => unlock userStatesRead done
  | some ref =>
      lockOrGiveUp (userLock ref) (unlock userStatesRead done) <|
      unlock (userLock ref) <|
      unlock userStatesRead done

def handleGetNonceForAddressMsg (user : Option Ref) : Program :=
  readUserState user

def handleGetLastMaxFee (user : Option Ref) : Program :=
  readUserState user

/-- `verify_proof_if_enabled`. -/
def verifyProofIfEnabled (refused next : Program) : Program :=
  choose next <|
  lock disabledVerifiers <|
  unlock disabledVerifiers <|
  choose refused next

/-- `handle_replacement_message`, which is handed the guard of the user. -/
def handleReplacementMessage (own : Ref) : Program :=
  lockOrGiveUp batchState (unlock (userLock own) done) <|
  choose (unlock batchState <| unlock (userLock own) done) <|
  verifyProofIfEnabled (unlock batchState <| unlock (userLock own) done) <|
  choose (unlock batchState <| unlock (userLock own) done) <|
  unlock batchState <|
  unlock (userLock own) done

/-- The eviction loop.  The guard that finds a candidate lives as long as the
body of its `if let`. -/
def evictionLoop (rejected evicted : Program) : List (Option Ref) → Program
  | [] => rejected
  | none :: rest =>
      lock userStatesRead <|
      unlock userStatesRead <|
      evictionLoop rejected evicted rest
  | some candidate :: rest =>
      lock userStatesRead <|
      tryLock (userLock candidate)
        (unlock userStatesRead <| evictionLoop rejected evicted rest) <|
      choose (unlock (userLock candidate) <| unlock userStatesRead <|
        evictionLoop rejected evicted rest) <|
      -- the evicted user has another entry, or loses its state
      choose (unlock (userLock candidate) <| unlock userStatesRead evicted) <|
      lock userStatesWrite <|
      unlock userStatesWrite <|
      unlock (userLock candidate) <|
      unlock userStatesRead evicted

/-- `handle_submit_proof_msg` once its user is present. -/
def handleProofOfUser (own : Ref) (candidates : List (Option Ref)) : Program :=
  lockOrGiveUp userStatesRead done <|
  unlock userStatesRead <|
  lockOrGiveUp (userLock own) done <|
  choose (unlock (userLock own) done) <|
  choose (handleReplacementMessage own) <|
  choose (unlock (userLock own) done) <|
  verifyProofIfEnabled (unlock (userLock own) done) <|
  lockOrGiveUp batchState (unlock (userLock own) done) <|
  choose (unlock batchState <| unlock (userLock own) done) <|
  evictionLoop (unlock batchState <| unlock (userLock own) done)
    (unlock batchState <| unlock (userLock own) done) candidates

def handleSubmitProofMsg (own : Ref) (candidates : List (Option Ref)) : Program :=
  choose done <|
  lockOrGiveUp userStatesRead done <|
  unlock userStatesRead <|
  choose (handleProofOfUser own candidates) <|
  choose done <|
  lockOrGiveUp userStatesWrite done <|
  unlock userStatesWrite <|
  handleProofOfUser own candidates

/-! ## Unlocked funds -/

/-- `remove_user_proofs_and_reset_state`. -/
def removeUserProofsAndResetState (next : Program) : Program :=
  lock userStatesWrite <|
  lockOrGiveUp batchState (unlock userStatesWrite next) <|
  unlock batchState <|
  unlock userStatesWrite next

/-- `process_balance_unlocked_events`; one user for each event. -/
def processBalanceUnlockedEvents : List (Option Ref) → Program
  | [] => done
  | none :: rest =>
      lock userStatesRead <|
      unlock userStatesRead <|
      processBalanceUnlockedEvents rest
  | some user :: rest =>
      lock userStatesRead <|
      lockOrGiveUp (userLock user)
        (unlock userStatesRead <| processBalanceUnlockedEvents rest) <|
      unlock (userLock user) <|
      unlock userStatesRead <|
      choose (processBalanceUnlockedEvents rest) <|
      removeUserProofsAndResetState (processBalanceUnlockedEvents rest)

/-! ## New blocks -/

/-- `flush_queue_and_clear_nonce_cache`. -/
def flushQueueAndClearNonceCache (next : Program) : Program :=
  lock batchState <|
  choose
    (lock userStatesWrite <|
      unlock userStatesWrite <|
      unlock batchState next) <|
  -- the state of the non-paying address is put back
  lock userStatesWrite <|
  unlock userStatesWrite <|
  lock userStatesWrite <|
  unlock userStatesWrite <|
  unlock batchState next

/-- `extract_batch_if_ready`. -/
def extractBatchIfReady (nothing extracted : Program) : Program :=
  lock batchState <|
  lock lastUploadedBatchBlock <|
  choose (unlock lastUploadedBatchBlock <| unlock batchState nothing) <|
  lock postingBatch <|
  test (fun posting => !posting)
    (unlock postingBatch <| unlock lastUploadedBatchBlock <| unlock batchState nothing) <|
  update (fun _ => true) <|
  choose
    (update (fun _ => false) <|
      unlock batchState <| unlock postingBatch <| unlock lastUploadedBatchBlock nothing) <|
  unlock batchState <|
  unlock postingBatch <|
  unlock lastUploadedBatchBlock extracted

/-- `update_user_states_from_queue_state`.  The guard that finds a user lives as
long as the body of its `if let`. -/
def updateUserStatesFromQueueState (next : Program) : List (Option Ref) → Program
  | [] => next
  | none :: rest =>
      lock userStatesRead <|
      unlock userStatesRead <|
      updateUserStatesFromQueueState next rest
  | some user :: rest =>
      lock userStatesRead <|
      lock (userLock user) <|
      lock batchState <|
      unlock batchState <|
      unlock (userLock user) <|
      unlock userStatesRead <|
      updateUserStatesFromQueueState next rest

/-- The users without entries in
`cleanup_user_states_after_successful_submission`. -/
def cleanupLoop (next : Program) : List (Option Ref) → Program
  | [] => next
  | none :: rest =>
      lock userStatesRead <|
      unlock userStatesRead <|
      cleanupLoop next rest
  | some user :: rest =>
      lock userStatesRead <|
      tryLock (userLock user) (unlock userStatesRead <| cleanupLoop next rest) <|
      unlock (userLock user) <|
      unlock userStatesRead <|
      cleanupLoop next rest

/-- `cleanup_user_states_after_successful_submission`. -/
def cleanupUserStatesAfterSuccessfulSubmission (users : List (Option Ref)) (next : Program) :
    Program :=
  tryLock batchState next <|
  cleanupLoop (unlock batchState next) users

/-- The evictions of `restore_proofs_after_batch_failure`, each with
`update_evicted_user_state_async`. -/
def restoreLoop (next : Program) : List (Option Ref) → Program
  | [] => next
  | user :: rest =>
      choose
        (lock userStatesWrite <|
          unlock userStatesWrite <|
          restoreLoop next rest) <|
      lock userStatesRead <|
      unlock userStatesRead <|
      match user with
      | none => restoreLoop next rest
      | some ref =>
          lock (userLock ref) <|
          unlock (userLock ref) <|
          restoreLoop next rest

/-- `restore_proofs_after_batch_failure`. -/
def restoreProofsAfterBatchFailure (evicted restored : List (Option Ref)) (next : Program) :
    Program :=
  lock userStatesWrite <|
  lock batchState <|
  restoreLoop
    (unlock userStatesWrite <|
      unlock batchState <|
      updateUserStatesFromQueueState next restored)
    evicted

/-- `finalize_batch`. -/
def finalizeBatch (updated cleaned : List (Option Ref)) (succeeded failed flushed : Program) :
    Program :=
  choose failed <|
  lock lastUploadedBatchBlock <|
  unlock lastUploadedBatchBlock <|
  choose failed <|
  choose (flushQueueAndClearNonceCache flushed) <|
  updateUserStatesFromQueueState
    (cleanupUserStatesAfterSuccessfulSubmission cleaned <| choose failed succeeded) updated

/-- The user states that a task for a block finds. -/
structure BlockUsers where
  updated : List (Option Ref)
  cleaned : List (Option Ref)
  evicted : List (Option Ref)
  restored : List (Option Ref)

/-- `handle_new_block` after the flush for changed verifiers. -/
def postBatch (users : BlockUsers) : Program :=
  extractBatchIfReady done <|
  finalizeBatch users.updated users.cleaned
    (lock postingBatch <| update (fun _ => false) <| unlock postingBatch done)
    (lock postingBatch <|
      update (fun _ => false) <|
      restoreProofsAfterBatchFailure users.evicted users.restored <|
      unlock postingBatch done)
    (lock postingBatch <| update (fun _ => false) <| unlock postingBatch done)

def handleNewBlock (users : BlockUsers) : Program :=
  choose done <|
  lock disabledVerifiers <|
  choose (unlock disabledVerifiers <| postBatch users) <|
  flushQueueAndClearNonceCache <|
  unlock disabledVerifiers <|
  postBatch users

/-! ## The system -/

inductive Entry where
  | newBlock (users : BlockUsers)
  | balanceUnlockedEvents (users : List (Option Ref))
  | submitProofMsg (own : Ref) (candidates : List (Option Ref))
  | getNonceForAddressMsg (user : Option Ref)
  | getLastMaxFee (user : Option Ref)

def program : Entry → Program
  | .newBlock users => handleNewBlock users
  | .balanceUnlockedEvents users => processBalanceUnlockedEvents users
  | .submitProofMsg own candidates => handleSubmitProofMsg own candidates
  | .getNonceForAddressMsg user => handleGetNonceForAddressMsg user
  | .getLastMaxFee user => handleGetLastMaxFee user

/-- Any number of tasks of each kind. -/
def tasks : Machine (LockSystem Lock Bool) (LockLabel Entry) :=
  LockSystem.machine program

def initial : LockSystem Lock Bool :=
  ⟨[], false⟩

/-! ## The order of the locks -/

def rank : Lock → Nat
  | .postingBatch => 0
  | .userStates => 1
  | .user _ => 2
  | .disabledVerifiers => 3
  | .lastUploadedBatchBlock => 4
  | .batchState => 5

/-- The order is kept by a task that holds the guards. -/
abbrev InOrder (program : Program) (held : List (Guard Lock)) : Prop :=
  program.Climbs rank .batchState held

section Guards

attribute [local simp] userStatesRead userStatesWrite userLock batchState
  lastUploadedBatchBlock postingBatch disabledVerifiers Guard.read Guard.write rank

variable {held : List (Guard Lock)} {other next : Program}

theorem inOrder_readUserState (user : Option Ref) : InOrder (readUserState user) [] := by
  cases user with
  | none => simp [InOrder, readUserState, Climbs]
  | some ref => simp [InOrder, readUserState, Climbs]

/-! ### Handlers -/

theorem inOrder_verifyProofIfEnabled
    (below : (∃ taken ∈ held, taken.lock = .batchState) ∨
      ∀ taken ∈ held, rank taken.lock < rank .disabledVerifiers)
    (refused : InOrder other held) (verified : InOrder next held) :
    InOrder (verifyProofIfEnabled other next) held := by
  refine ⟨verified, below, ?_⟩
  rw [Climbs, List.erase_cons_head]
  exact ⟨refused, verified⟩

theorem inOrder_handleReplacementMessage (own : Ref) :
    InOrder (handleReplacementMessage own) [userLock own] := by
  refine ⟨trivial, trivial, ?_⟩
  apply inOrder_verifyProofIfEnabled
  · exact .inl ⟨batchState, List.mem_cons_self, rfl⟩
  · trivial
  · exact ⟨trivial, trivial⟩

theorem inOrder_evictionLoop (locked : batchState ∈ held) (rejected : InOrder other held)
    (evicted : InOrder next held) (candidates : List (Option Ref)) :
    InOrder (evictionLoop other next candidates) held := by
  induction candidates with
  | nil => exact rejected
  | cons candidate rest induction =>
      cases candidate with
      | none =>
          rw [InOrder, evictionLoop, Climbs, Climbs, List.erase_cons_head]
          exact ⟨.inl ⟨batchState, locked, rfl⟩, induction⟩
      | some ref =>
          have holds : ∃ taken ∈ userLock ref :: userStatesRead :: held,
              taken.lock = .batchState :=
            ⟨batchState, List.mem_cons_of_mem _ (List.mem_cons_of_mem _ locked), rfl⟩
          simp only [InOrder, evictionLoop, Climbs, List.erase_cons_head]
          exact ⟨.inl ⟨batchState, locked, rfl⟩, induction, induction, evicted,
            .inl holds, evicted⟩

theorem inOrder_handleProofOfUser (own : Ref) (candidates : List (Option Ref)) :
    InOrder (handleProofOfUser own candidates) [] := by
  have dropped : InOrder (unlock batchState <| unlock (userLock own) done)
      [batchState, userLock own] := trivial
  have evicts := inOrder_evictionLoop List.mem_cons_self dropped dropped candidates
  simp only [InOrder, handleProofOfUser, Climbs, List.erase_cons_head]
  refine ⟨trivial, trivial, trivial, inOrder_handleReplacementMessage own, trivial, ?_⟩
  apply inOrder_verifyProofIfEnabled
  · right
    simp
  · trivial
  · exact ⟨trivial, trivial, evicts⟩

theorem inOrder_handleSubmitProofMsg (own : Ref) (candidates : List (Option Ref)) :
    InOrder (handleSubmitProofMsg own candidates) [] := by
  have handled := inOrder_handleProofOfUser own candidates
  simp only [InOrder, handleSubmitProofMsg, Climbs, List.erase_cons_head]
  exact ⟨trivial, trivial, handled, trivial, trivial, handled⟩

/-! ### Unlocked funds -/

theorem inOrder_processBalanceUnlockedEvents (users : List (Option Ref)) :
    InOrder (processBalanceUnlockedEvents users) [] := by
  induction users with
  | nil => trivial
  | cons user rest induction =>
      cases user with
      | none => simpa [InOrder, processBalanceUnlockedEvents, Climbs] using induction
      | some ref =>
          simpa [InOrder, processBalanceUnlockedEvents, removeUserProofsAndResetState, Climbs]
            using induction

/-! ### New blocks -/

theorem inOrder_flush (below : ∀ taken ∈ held, rank taken.lock < rank .batchState)
    (inOrder : InOrder next held) : InOrder (flushQueueAndClearNonceCache next) held := by
  have holds : ∃ taken ∈ batchState :: held, taken.lock = .batchState :=
    ⟨batchState, List.mem_cons_self, rfl⟩
  simp only [InOrder, flushQueueAndClearNonceCache, Climbs, List.erase_cons_head]
  exact ⟨.inr below, ⟨.inl holds, inOrder⟩, .inl holds, .inl holds, inOrder⟩

theorem inOrder_extractBatchIfReady (nothing : InOrder other []) (extracted : InOrder next []) :
    InOrder (extractBatchIfReady other next) [] := by
  simpa [InOrder, extractBatchIfReady, Climbs] using ⟨nothing, extracted⟩

theorem inOrder_updateUserStates
    (below : ∀ taken ∈ held, rank taken.lock < rank .userStates) (inOrder : InOrder next held)
    (users : List (Option Ref)) :
    InOrder (updateUserStatesFromQueueState next users) held := by
  induction users with
  | nil => exact inOrder
  | cons user rest induction =>
      cases user with
      | none =>
          simp only [InOrder, updateUserStatesFromQueueState, Climbs, List.erase_cons_head]
          exact ⟨.inr below, induction⟩
      | some ref =>
          simp only [InOrder, updateUserStatesFromQueueState, Climbs, List.erase_cons_head]
          refine ⟨.inr below, .inr ?_, .inr ?_, induction⟩
          · rw [List.forall_mem_cons]
            exact ⟨by simp, fun taken before => Nat.lt_succ_of_lt (below taken before)⟩
          · rw [List.forall_mem_cons, List.forall_mem_cons]
            refine ⟨by simp, by simp, ?_⟩
            intro taken before
            exact Nat.lt_trans (below taken before) (by simp)

theorem inOrder_cleanupLoop (locked : batchState ∈ held) (inOrder : InOrder next held)
    (users : List (Option Ref)) : InOrder (cleanupLoop next users) held := by
  have holds : ∃ taken ∈ held, taken.lock = .batchState := ⟨batchState, locked, rfl⟩
  induction users with
  | nil => exact inOrder
  | cons user rest induction =>
      cases user with
      | none =>
          simp only [InOrder, cleanupLoop, Climbs, List.erase_cons_head]
          exact ⟨.inl holds, induction⟩
      | some ref =>
          simp only [InOrder, cleanupLoop, Climbs, List.erase_cons_head]
          exact ⟨.inl holds, induction, induction⟩

theorem inOrder_restoreLoop (locked : batchState ∈ held) (inOrder : InOrder next held)
    (users : List (Option Ref)) : InOrder (restoreLoop next users) held := by
  have holds : ∃ taken ∈ held, taken.lock = .batchState := ⟨batchState, locked, rfl⟩
  induction users with
  | nil => exact inOrder
  | cons user rest induction =>
      cases user with
      | none =>
          simp only [InOrder, restoreLoop, Climbs, List.erase_cons_head]
          exact ⟨⟨.inl holds, induction⟩, .inl holds, induction⟩
      | some ref =>
          simp only [InOrder, restoreLoop, Climbs, List.erase_cons_head]
          exact ⟨⟨.inl holds, induction⟩, .inl holds, .inl holds, induction⟩

theorem inOrder_restoreProofs (evicted restored : List (Option Ref))
    (inOrder : InOrder next [postingBatch]) :
    InOrder (restoreProofsAfterBatchFailure evicted restored next) [postingBatch] := by
  refine ⟨.inr (by simp), .inr (by simp), ?_⟩
  apply inOrder_restoreLoop List.mem_cons_self
  have updates := inOrder_updateUserStates (by simp) inOrder restored
  simpa [InOrder, Climbs] using updates

theorem inOrder_finalizeBatch {succeeded failed flushed : Program}
    (updated cleaned : List (Option Ref)) (afterSuccess : InOrder succeeded [])
    (afterFailure : InOrder failed []) (afterFlush : InOrder flushed []) :
    InOrder (finalizeBatch updated cleaned succeeded failed flushed) [] := by
  have ends : InOrder (choose failed succeeded) [] := ⟨afterFailure, afterSuccess⟩
  have cleans : InOrder (cleanupUserStatesAfterSuccessfulSubmission cleaned
      (choose failed succeeded)) [] := by
    refine ⟨ends, ?_⟩
    exact inOrder_cleanupLoop List.mem_cons_self (by simpa [InOrder, Climbs] using ends) cleaned
  have updates := inOrder_updateUserStates (by simp) cleans updated
  have flushes := inOrder_flush (by simp) afterFlush
  simpa [InOrder, finalizeBatch, Climbs] using ⟨afterFailure, flushes, updates⟩

theorem inOrder_postBatch (users : BlockUsers) : InOrder (postBatch users) [] := by
  have resets : InOrder (lock postingBatch <| update (fun _ => false) <|
      unlock postingBatch done) [] := by
    simp [InOrder, Climbs]
  have restores := @inOrder_restoreProofs (unlock postingBatch done) users.evicted
    users.restored trivial
  apply inOrder_extractBatchIfReady
  · trivial
  · apply inOrder_finalizeBatch _ _ resets _ resets
    exact ⟨.inr (by simp), restores⟩

theorem inOrder_handleNewBlock (users : BlockUsers) : InOrder (handleNewBlock users) [] := by
  have posts := inOrder_postBatch users
  refine ⟨trivial, .inr (by simp), ?_, ?_⟩
  · simpa [Climbs] using posts
  · apply inOrder_flush (by simp)
    simpa [InOrder, Climbs] using posts

theorem inOrder_program (entry : Entry) : InOrder (program entry) [] := by
  cases entry with
  | newBlock users => exact inOrder_handleNewBlock users
  | balanceUnlockedEvents users => exact inOrder_processBalanceUnlockedEvents users
  | submitProofMsg own candidates => exact inOrder_handleSubmitProofMsg own candidates
  | getNonceForAddressMsg user => exact inOrder_readUserState user
  | getLastMaxFee user => exact inOrder_readUserState user

end Guards

/-! ## Cycles of waits -/

/-- While every wait without a timeout begins safely with respect to
`batch_state`, no tasks wait for each other in a cycle. -/
theorem no_deadlock {labels : List (LockLabel Entry)} {finish : LockSystem Lock Bool}
    (safely : tasks.Meets (LockSystem.BeginsToWaitSafely .batchState) initial labels)
    (ran : tasks.run initial labels = some finish) : ¬ finish.Deadlocked :=
  LockSystem.not_deadlocked_of_run inOrder_program safely ran

namespace Sample

def advances (index : Nat) (choices : List Bool) : List (LockLabel Entry) :=
  choices.map (.advance index)

def block : Entry :=
  .newBlock ⟨[], [], [], [some 0]⟩

/-- A task posts a batch in vain and takes `user_states` to restore it. -/
def restoring : List (LockLabel Entry) :=
  .start block :: advances 0 [false, false, true, false] ++
    advances 0 (List.replicate 10 false) ++ advances 0 [false, false, false, true] ++
    advances 0 [false, false, false]

/-- The next block comes while the restoration holds `batch_state`. -/
def restoredFirst : List (LockLabel Entry) :=
  restoring ++ advances 0 [false] ++
    .start block :: advances 1 [false, false, true, false, false] ++
    advances 0 [false, false] ++ advances 1 [false] ++
    advances 0 [false, false, false] ++ advances 1 [false, true, false, false] ++
    advances 0 [false, false, false, false, false]

/-- The next block comes before the restoration has `batch_state`. -/
def extractedMeanwhile : List (LockLabel Entry) :=
  restoring ++ .start block :: advances 1 [false, false, true, false, false, false, false, false] ++
    advances 0 [false]

end Sample

theorem no_deadlock_restoredFirst : ∃ finish,
    tasks.run initial Sample.restoredFirst = some finish ∧ ¬ finish.Deadlocked := by
  have ends : (tasks.run initial Sample.restoredFirst).isSome = true := by decide +kernel
  obtain ⟨finish, ran⟩ := Option.isSome_iff_exists.mp ends
  exact ⟨finish, ran, no_deadlock (by decide +kernel) ran⟩

/-- The restoration holds `posting_batch` and waits for `batch_state`, the
extraction holds `batch_state` and waits for `posting_batch`. -/
theorem restoration_and_extraction_deadlock : ∃ finish,
    tasks.run initial Sample.extractedMeanwhile = some finish ∧ finish.Deadlocked := by
  have waits : ∃ finish ∈ tasks.run initial Sample.extractedMeanwhile,
      finish.WaitsFor 0 1 ∧ finish.WaitsFor 1 0 := by
    decide +kernel
  obtain ⟨finish, ran, forth, back⟩ := waits
  exact ⟨finish, ran, 0, .tail (.single forth) back⟩

end Deadlocks

end AlignedLayer
