import AlignedLayer.Batcher.BalanceCover

/-!
# The nonce on the chain

The chain counts the entries of a user when their batch takes effect.  Until
the batcher has seen the receipt, these entries are both in flight and counted.
-/

namespace AlignedLayer

variable {environment : Environment} {config : Config} {system : System} {label : Label}
  {after : Shared} {address : Address}

/-! ## What is in flight and on the chain -/

namespace Shared

variable {shared : Shared} {batch : InFlight} {stage : Stage}

/-- The entries in flight whose `createNewTask` has taken effect. -/
def mined (shared : Shared) : List BatchQueueEntry :=
  match shared.batch with
  | none => []
  | some (batch, _) => if shared.chain.isMined batch.number then shared.inFlight else []

theorem mined_append_unmined (shared : Shared) :
    shared.mined ++ shared.unmined = shared.inFlight := by
  rw [mined, unmined]
  cases current : shared.batch with
  | none => rw [inFlight_of_none current, List.append_nil]
  | some work =>
      simp only
      split
      · exact List.append_nil _
      · exact List.nil_append _

theorem mined_of_none (idle : shared.batch = none) : shared.mined = [] := by
  rw [mined, idle]

theorem mined_of_closed (current : shared.batch = some (batch, stage))
    (closed : stage.isOpen = false) : shared.mined = [] := by
  simp [mined, current, inFlight_of_not_open current closed]

theorem mined_of_not_mined (current : shared.batch = some (batch, stage))
    (notMined : shared.chain.isMined batch.number = false) : shared.mined = [] := by
  simp [mined, current, notMined]

theorem mined_of_mined (current : shared.batch = some (batch, stage))
    (mined : shared.chain.isMined batch.number = true) : shared.mined = shared.inFlight := by
  simp [Shared.mined, current, mined]

theorem mined_of_same (sameBatch : after.batch = shared.batch)
    (sameMined : ∀ number, after.chain.isMined number = shared.chain.isMined number) :
    after.mined = shared.mined := by
  simp only [mined, inFlight, sameBatch, sameMined]

theorem mined_enter {next : Stage} (current : shared.batch = some (batch, stage))
    (isOpen : stage.isOpen = true) (nextOpen : next.isOpen = true) :
    (shared.enter batch next).mined = shared.mined := by
  simp [mined, inFlight, enter, current, isOpen, nextOpen]

/-- A batch that may go back to the queue is not on the chain. -/
theorem mined_of_not_mayBeMined (submitted : Submitted shared)
    (current : shared.batch = some (batch, stage)) (before : stage.mayBeMined = false) :
    shared.mined = [] := by
  apply mined_of_not_mined current
  cases mined : shared.chain.isMined batch.number with
  | false => rfl
  | true =>
      have contradiction := submitted.mined _ _ current mined
      rw [before] at contradiction
      cases contradiction

end Shared

/-! ## Every step -/

/-- The chain has counted nothing new. -/
structure Shared.SameCount (shared after : Shared) : Prop where
  charged : after.chain.charged = shared.chain.charged
  nonces : ∀ address, after.chain.userNonce address = shared.chain.userNonce address
  mined : after.mined = shared.mined

/-- The chain has counted the batch in flight. -/
structure Shared.CountsBatch (shared after : Shared) (batch : InFlight) (stage : Stage) :
    Prop where
  current : shared.batch = some (batch, stage)
  isOpen : stage.isOpen = true
  sent : ∀ user, stage ≠ .insufficient user
  before : shared.mined = []
  charged : after.chain.charged = shared.chain.charged ++ batch.entries
  nonces : ∀ address, after.chain.userNonce address = shared.chain.userNonce address +
    (batch.entries.filter fun entry => entry.sender = address).length
  mined : after.mined = batch.entries

/-- No call by a user or the owner touches a nonce. -/
theorem Chain.userCall_nonce {call : UserCall} {chain called : Chain}
    (ran : chain.userCall call = some called) (address : Address) :
    called.userNonce address = chain.userNonce address := by
  have update : ∀ {userData : Address → BatcherPaymentService.UserInfo} {sender : Address}
      {info : BatcherPaymentService.UserInfo}, info.nonce = (userData sender).nonce →
      (Function.update userData sender info address).nonce = (userData address).nonce := by
    intro userData sender info same
    by_cases own : address = sender
    · subst own
      rw [Function.update_self]
      exact same
    · rw [Function.update_of_ne own]
  simp only [Chain.userCall] at ran
  split at ran
  · rename_i service result
    cases ran
    simp only [Chain.userNonce, BatcherPaymentService.userNonces]
    cases call with
    | deposit sender value =>
        simp only [BatcherPaymentService.receive] at result
        split at result
        · cases result
          rfl
        · simp only [bind_eq_ok, checkedAdd_eq_ok] at result
          obtain ⟨balance, -, result⟩ := result
          cases result
          exact update rfl
    | unlock sender timestamp =>
        simp only [BatcherPaymentService.unlock, bind_eq_ok, revertIf_eq_ok] at result
        obtain ⟨-, -, -, -, time, -, result⟩ := result
        cases result
        exact update rfl
    | lock sender =>
        simp only [BatcherPaymentService.lock, bind_eq_ok, revertIf_eq_ok] at result
        obtain ⟨-, -, -, -, result⟩ := result
        cases result
        exact update rfl
    | withdraw sender amount timestamp =>
        simp only [BatcherPaymentService.withdraw, bind_eq_ok, revertIf_eq_ok] at result
        obtain ⟨-, -, -, -, -, -, -, -, result⟩ := result
        cases result
        exact update rfl
    | setPaused paused =>
        cases result
        rfl
  · cases ran

/-- What the chain counts when the transaction of the batch is executed. -/
theorem Shared.mine_counts {shared : Shared} {id blockNumber : Nat} {chain : Chain}
    (submitted : Submitted shared) (calls : CallsMatch shared)
    (mined : shared.chain.mine environment config id blockNumber = some chain) :
    shared.SameCount { shared with chain := chain } ∨
      ∃ batch stage, shared.CountsBatch { shared with chain := chain } batch stage := by
  obtain ⟨transaction, member, -, -, -, result⟩ := Chain.mine_eq_some mined
  obtain ⟨batch, stage, current, number, entries, call, stageIs, notMined⟩ :=
    submitted.owner transaction member
  rcases result with ⟨service, manager, executed, sameService, included⟩ | ⟨sameService, included⟩
  · refine .inr ⟨batch, stage, current, ?_, ?_, mined_of_not_mined current notMined, ?_, ?_, ?_⟩
    · rcases stageIs with rfl | rfl
      · rfl
      · rfl
    · rcases stageIs with rfl | rfl
      · exact fun user same => by cases same
      · exact fun user same => by cases same
    · rw [← entries]
      exact Chain.charged_append included
    · intro address
      rw [call] at executed
      obtain ⟨charged, -⟩ := BatcherPaymentService.createNewTask_ok executed
      obtain ⟨-, afterUser⟩ := BatcherPaymentService.decreaseUserBalances_ok charged address
      rw [calls batch stage current, count_senders] at afterUser
      simp only [Chain.userNonce, BatcherPaymentService.userNonces, sameService, afterUser,
        BatcherPaymentService.UserInfo.charged]
    · have isMined : chain.isMined batch.number = true := by
        rw [Chain.isMined_append _ included, number]
        simp
      have sameBatch : Shared.batch { shared with chain := chain } = some (batch, stage) := current
      rw [mined_of_mined sameBatch isMined]
      apply inFlight_of_open sameBatch
      rcases stageIs with rfl | rfl
      · rfl
      · rfl
  · refine .inl ⟨?_, ?_, mined_of_same rfl fun other => ?_⟩
    · simpa using Chain.charged_append included
    · intro address
      simp only [Chain.userNonce, sameService]
    · simpa using Chain.isMined_append other included

theorem Shared.afterFlush_mined {shared : Shared} {origin : FlushOrigin}
    (submitted : Submitted shared)
    (waits : origin = .insufficientBalance →
      ∃ batch user, shared.batch = some (batch, .insufficient user)) :
    shared.SameCount (shared.afterFlush origin) := by
  cases origin with
  | disabledVerifiers => exact ⟨rfl, fun _ => rfl, rfl⟩
  | insufficientBalance =>
      obtain ⟨batch, user, current⟩ := waits rfl
      have reset : shared.afterFlush .insufficientBalance = shared.resetBatch batch := by
        simp [Shared.afterFlush, current]
      rw [reset]
      refine ⟨rfl, fun _ => rfl, ?_⟩
      rw [mined_of_not_mayBeMined submitted current rfl]
      exact mined_of_none rfl

/-- Until the receipt, the chain counts nothing new or the batch in flight. -/
theorem Change.counts (waits : FlushWaits system) (submitted : Submitted system.shared)
    (calls : CallsMatch system.shared) (guarded : ErrorsAreFinal system label)
    (notReceipt : label ≠ .receipt) (change : Change environment config system label after) :
    system.shared.SameCount after ∨
      ∃ batch stage, system.shared.CountsBatch after batch stage := by
  have mined : ∀ {after : Shared}, after.chain = system.shared.chain →
      after.mined = system.shared.mined → system.shared.SameCount after ∨
        ∃ batch stage, system.shared.CountsBatch after batch stage := by
    intro after chain same
    exact .inl ⟨by rw [chain], fun _ => by rw [chain], same⟩
  cases change with
  | evict running full found removed =>
      obtain ⟨userStates, cells, rfl⟩ := Shared.evict_eq_ok removed
      exact mined rfl rfl
  | evictPanics running full found removed =>
      obtain ⟨userStates, cells, rfl⟩ := Shared.evict_eq_error removed
      exact mined rfl rfl
  | @extract layout gasPrice blockNumber idle =>
      rcases Shared.extract_cases environment config layout
        (gasPrice * gasPricePercentageMultiplier / percentageDivider) blockNumber system.shared
        with ⟨rest, -, equation⟩ | ⟨entries, rest, -, equation⟩
      · rw [equation]
        exact mined rfl rfl
      · have fresh : system.shared.chain.isMined system.shared.batches = false := by
          cases isMined : system.shared.chain.isMined system.shared.batches with
          | false => rfl
          | true =>
              exact absurd (Chain.isMined_lt submitted.included_lt isMined) (Nat.lt_irrefl _)
        rw [equation]
        apply mined
        · rfl
        · rw [Shared.mined_of_none idle]
          exact Shared.mined_of_not_mined rfl fresh
  | advance current unsent later =>
      have nextOpen := later.elim Stage.isOpen_of_isUnsent Stage.isOpen_of_isLost
      exact mined rfl (Shared.mined_enter current (Stage.isOpen_of_isUnsent unsent) nextOpen)
  | @send answer label batch stage next labelled current unsent answered =>
      have nextOpen : next.isOpen = true := by
        rcases answered with ⟨-, rfl⟩ | ⟨-, later⟩
        · rfl
        · exact later.elim Stage.isOpen_of_isUnsent Stage.isOpen_of_isLost
      have sameBatch : (system.shared.broadcast batch).batch = some (batch, stage) := current
      have same : ((system.shared.broadcast batch).enter batch next).mined =
          system.shared.mined := by
        rw [Shared.mined_enter sameBatch (Stage.isOpen_of_isUnsent unsent) nextOpen]
        exact Shared.mined_of_same rfl fun _ => rfl
      exact .inl ⟨rfl, fun _ => rfl, same⟩
  | giveUpWaiting current => exact mined rfl (Shared.mined_enter current rfl rfl)
  | endCancel current => exact mined rfl (Shared.mined_enter current rfl rfl)
  | receipt current included => exact absurd rfl notReceipt
  | @updateUser layout user batch users current member free =>
      obtain ⟨cells, equation⟩ := Shared.updateUser_eq layout user system.shared
      rw [equation]
      apply mined
      · rfl
      · rw [Shared.mined_of_closed current rfl]
        exact Shared.mined_of_closed rfl rfl
  | @updateRestoredUser layout user batch users current member free =>
      obtain ⟨cells, equation⟩ := Shared.updateUser_eq layout user system.shared
      rw [equation]
      apply mined
      · rfl
      · rw [Shared.mined_of_closed current rfl]
        exact Shared.mined_of_closed rfl rfl
  | @cleanupUser layout user batch users current free =>
      obtain ⟨cells, equation⟩ := Shared.cleanupUser_eq layout user system.shared
      rw [equation]
      apply mined
      · rfl
      · rw [Shared.mined_of_closed current rfl]
        exact Shared.mined_of_closed rfl rfl
  | close current closed updated later =>
      apply mined
      · rfl
      · rw [Shared.mined_of_closed current (Stage.not_isOpen_of_isClosed closed)]
        rcases later with ⟨users, rfl⟩ | rfl
        · exact Shared.mined_of_closed rfl rfl
        · exact Shared.mined_of_closed rfl rfl
  | endRestored current =>
      apply mined
      · rfl
      · rw [Shared.mined_of_closed current rfl]
        exact Shared.mined_of_none rfl
  | respond current =>
      apply mined
      · rfl
      · rw [Shared.mined_of_closed current rfl]
        exact Shared.mined_of_none (Shared.respond_batch guarded current)
  | restore current ran =>
      obtain ⟨queue, users, lost, rfl, -⟩ := Shared.restore_eq_some ran
      apply mined
      · rfl
      · rw [Shared.mined_of_not_mayBeMined submitted current rfl]
        exact Shared.mined_of_closed rfl rfl
  | @flushAndReset label origin stage labelled flushing =>
      have flushed : Submitted system.shared.flush := submitted.of_same rfl rfl rfl rfl
      have same := Shared.afterFlush_mined flushed
        (fun same : origin = _ => waits stage (same ▸ flushing))
      exact .inl ⟨same.charged, same.nonces, same.mined⟩
  | @insertNonpaying origin user nonce flushing configured =>
      have created : Submitted (system.shared.createUser user nonce) :=
        submitted.of_same rfl rfl rfl rfl
      have same := Shared.afterFlush_mined created
        (fun same : origin = _ => waits _ (same ▸ flushing))
      exact .inl ⟨same.charged, same.nonces, same.mined⟩
  | mine ran => exact Shared.mine_counts submitted calls ran
  | dropTransaction => exact .inl ⟨rfl, fun _ => rfl, Shared.mined_of_same rfl fun _ => rfl⟩
  | userCall called =>
      have nonces := Chain.userCall_nonce called
      rw [Chain.userCall_eq_some called] at nonces ⊢
      exact .inl ⟨rfl, nonces, Shared.mined_of_same rfl fun _ => rfl⟩
  | _ => exact mined rfl rfl

end AlignedLayer
