import AlignedLayer.Contracts.Solvency
import AlignedLayer.Library.LastSetting

/-!
# The unlock delay of withdrawals

The unlock time of a user is set by its `unlock` and cleared by its deposits,
its `lock` and its `withdraw`.  A withdrawal needs a time that is set and has
passed, so there is an `unlock` behind it that nothing has touched since.
-/

namespace AlignedLayer

namespace Ledger

/-- The call succeeds. -/
def Succeeds (keccak : Bytes → Bytes32) (ledger : Ledger) (transaction : Transaction) : Prop :=
  ∃ next, ledger.execute keccak transaction.accepts transaction.call = .ok next

/-- A deposit of the user, or its `unlock`, `lock` or `withdraw`.  What the
service manager sends is no deposit. -/
def ActsOnLock (user : Address) (ledger : Ledger) : Call → Prop
  | .receive sender _ =>
      sender = user ∧ sender ≠ ledger.payment.alignedLayerServiceManager
  | .unlock sender _ => sender = user
  | .lock sender => sender = user
  | .withdraw sender _ _ => sender = user
  | _ => False

def Touches (keccak : Bytes → Bytes32) (user : Address) (ledger : Ledger)
    (transaction : Transaction) : Prop :=
  ledger.Succeeds keccak transaction ∧ ledger.ActsOnLock user transaction.call

def unlockTime (user : Address) (ledger : Ledger) : Nat :=
  BatcherPaymentService.userUnlockBlock ledger.payment user

/-- A successful `unlock` of the user that sets its unlock time. -/
def Unlocks (keccak : Bytes → Bytes32) (user : Address) (ledger : Ledger)
    (transaction : Transaction) (time : Nat) : Prop :=
  ledger.Succeeds keccak transaction ∧
    ∃ timestamp, transaction.call = .unlock user timestamp ∧
      time = timestamp + BatcherPaymentService.unlockBlockTime

variable {keccak : Bytes → Bytes32} {accepts : Address → Bool} {sender recipient : Address}
  {ledger next : Ledger} {amount : Nat} (user : Address)

/-! ## What a call does to the unlock time -/

theorem receive_userData {value : Nat} {state after : BatcherPaymentService.State}
    (received : BatcherPaymentService.receive sender value state = .ok after) :
    (after.userData user).unlockBlockTime = 0 ∨
      (after.userData user).unlockBlockTime = (state.userData user).unlockBlockTime ∧
        ¬ (sender = user ∧ sender ≠ state.alignedLayerServiceManager) := by
  rw [BatcherPaymentService.receive] at received
  split at received
  case isTrue fromManager =>
    cases received
    exact .inr ⟨rfl, fun deposit => deposit.2 fromManager⟩
  case isFalse =>
    simp only [bind_eq_ok, pure, Except.pure, Except.ok.injEq] at received
    obtain ⟨balance, -, rfl⟩ := received
    by_cases same : user = sender
    · left
      simp [same]
    · right
      refine ⟨by simp [same], ?_⟩
      intro deposit
      exact same deposit.1.symm

theorem deliver_unlockTime
    (delivered : ledger.deliver accepts sender recipient amount = .ok next) :
    next.unlockTime user = 0 ∨ next.unlockTime user = ledger.unlockTime user := by
  simp only [deliver, bind_eq_ok] at delivered
  obtain ⟨-, -, delivered⟩ := delivered
  split at delivered
  · simp only [bind_eq_ok, pure, Except.pure, Except.ok.injEq] at delivered
    obtain ⟨payment, received, rfl⟩ := delivered
    exact (receive_userData user received).imp_right And.left
  · right
    split at delivered
    · simp only [bind_eq_ok, pure, Except.pure, Except.ok.injEq] at delivered
      obtain ⟨manager, -, rfl⟩ := delivered
      rfl
    · cases delivered
      rfl

theorem decreaseUserBalances_unlockBlockTime {feePerProof index : Nat}
    {proofSubmitters : List Address}
    {userData after : Address → BatcherPaymentService.UserInfo}
    (charged : BatcherPaymentService.decreaseUserBalances feePerProof index proofSubmitters
      userData = .ok after) :
    (after user).unlockBlockTime = (userData user).unlockBlockTime := by
  induction proofSubmitters generalizing index userData with
  | nil =>
      cases charged
      rfl
  | cons proofSubmitter rest induction =>
      simp only [BatcherPaymentService.decreaseUserBalances, bind_eq_ok] at charged
      obtain ⟨-, -, nonce, -, -, -, later⟩ := charged
      rw [induction later]
      by_cases same : user = proofSubmitter
      · simp [same]
      · simp [same]

theorem createNewTask_unlockTime {blockNumber : Nat} {call : BatcherPaymentService.CreateNewTask}
    (created : ledger.createNewTask keccak accepts blockNumber sender call = .ok next) :
    next.unlockTime user = 0 ∨ next.unlockTime user = ledger.unlockTime user := by
  simp only [createNewTask, bind_eq_ok, Prod.exists] at created
  obtain ⟨payment, managed, charged, delivered⟩ := created
  simp only [BatcherPaymentService.createNewTask, bind_eq_ok, pure, Except.pure,
    Except.ok.injEq, Prod.mk.injEq] at charged
  obtain ⟨-, -, -, -, -, -, -, -, total, -, -, -, userData, decreased, -, -, middle, -,
    -, -, rfl, rfl⟩ := charged
  rcases deliver_unlockTime user delivered with reset | same
  · exact .inl reset
  · right
    rw [same]
    exact decreaseUserBalances_unlockBlockTime user decreased

theorem withdrawFromManager_unlockTime
    (withdrawn : ledger.withdrawFromManager accepts sender amount = .ok next) :
    next.unlockTime user = 0 ∨ next.unlockTime user = ledger.unlockTime user := by
  simp only [withdrawFromManager, bind_eq_ok] at withdrawn
  obtain ⟨manager, -, delivered⟩ := withdrawn
  have moved := deliver_unlockTime user delivered
  exact moved

theorem withdrawFromServiceManager_unlockTime {withdrawAddress : Address} {value : Nat}
    (withdrawn : ledger.withdrawFromServiceManager accepts sender value amount withdrawAddress =
      .ok next) :
    next.unlockTime user = 0 ∨ next.unlockTime user = ledger.unlockTime user := by
  simp only [withdrawFromServiceManager, bind_eq_ok] at withdrawn
  obtain ⟨-, -, returned, fromManager, -, -, delivered⟩ := withdrawn
  rcases deliver_unlockTime user delivered with reset | same
  · exact .inl reset
  · have moved := withdrawFromManager_unlockTime user fromManager
    rw [same]
    exact moved

theorem respondToTaskV2_unlockTime {gas : AlignedLayerServiceManager.Gas}
    {checkSignatures : Bytes32 → Nat →
      Except Revert AlignedLayerServiceManager.QuorumStakeTotals}
    {root : Bytes32} {senderAddress : Address}
    (responded : ledger.respondToTaskV2 keccak accepts sender gas checkSignatures root
      senderAddress = .ok next) :
    next.unlockTime user = 0 ∨ next.unlockTime user = ledger.unlockTime user := by
  simp only [respondToTaskV2, bind_eq_ok, Prod.exists] at responded
  obtain ⟨manager, transferAmount, -, delivered⟩ := responded
  have moved := deliver_unlockTime user delivered
  exact moved

theorem unlock_unlockTime {timestamp : Nat} {payment : BatcherPaymentService.State}
    (unlocked : BatcherPaymentService.unlock sender timestamp ledger.payment = .ok payment) :
    (payment.userData user).unlockBlockTime =
      if sender = user then timestamp + BatcherPaymentService.unlockBlockTime
      else ledger.unlockTime user := by
  simp only [BatcherPaymentService.unlock, bind_eq_ok, checkedAdd_eq_ok, pure, Except.pure,
    Except.ok.injEq] at unlocked
  obtain ⟨-, -, -, -, time, ⟨-, rfl⟩, rfl⟩ := unlocked
  by_cases same : user = sender
  · simp [same]
  · rw [if_neg (Ne.symm same)]
    simp [same, unlockTime, BatcherPaymentService.userUnlockBlock]

theorem lock_unlockTime {payment : BatcherPaymentService.State}
    (locked : BatcherPaymentService.lock sender ledger.payment = .ok payment) :
    (payment.userData user).unlockBlockTime =
      if sender = user then 0 else ledger.unlockTime user := by
  simp only [BatcherPaymentService.lock, bind_eq_ok, pure, Except.pure, Except.ok.injEq] at locked
  obtain ⟨-, -, -, -, rfl⟩ := locked
  by_cases same : user = sender
  · simp [same]
  · rw [if_neg (Ne.symm same)]
    simp [same, unlockTime, BatcherPaymentService.userUnlockBlock]

/-- A withdrawal needs an unlock time that has passed, and clears it. -/
theorem withdraw_unlockTime {timestamp : Nat} {payment : BatcherPaymentService.State}
    (withdrawn : BatcherPaymentService.withdraw sender amount timestamp ledger.payment =
      .ok payment) :
    ledger.unlockTime sender ≠ 0 ∧ ledger.unlockTime sender ≤ timestamp ∧
      (payment.userData user).unlockBlockTime =
        if sender = user then 0 else ledger.unlockTime user := by
  simp only [BatcherPaymentService.withdraw, bind_eq_ok, revertIf_eq_ok, pure, Except.pure,
    Except.ok.injEq] at withdrawn
  obtain ⟨-, -, -, -, -, open', -, -, rfl⟩ := withdrawn
  rw [not_or, Nat.not_lt] at open'
  refine ⟨open'.1, open'.2, ?_⟩
  by_cases same : user = sender
  · simp [same]
  · rw [if_neg (Ne.symm same)]
    simp [same, unlockTime, BatcherPaymentService.userUnlockBlock]

/-- A call clears the unlock time of a user, or is its `unlock`, or leaves the
time alone and is none of the user's acts on the lock. -/
theorem execute_unlockTime {call : Call}
    (executed : ledger.execute keccak accepts call = .ok next) :
    next.unlockTime user = 0 ∨
      (∃ timestamp, call = .unlock user timestamp ∧
        next.unlockTime user = timestamp + BatcherPaymentService.unlockBlockTime) ∨
      (next.unlockTime user = ledger.unlockTime user ∧ ¬ ledger.ActsOnLock user call) := by
  have others : (next.unlockTime user = 0 ∨ next.unlockTime user = ledger.unlockTime user) →
      ¬ ledger.ActsOnLock user call → next.unlockTime user = 0 ∨
        (∃ timestamp, call = .unlock user timestamp ∧
          next.unlockTime user = timestamp + BatcherPaymentService.unlockBlockTime) ∨
        (next.unlockTime user = ledger.unlockTime user ∧ ¬ ledger.ActsOnLock user call) := by
    intro moved noAct
    rcases moved with reset | same
    · exact .inl reset
    · exact .inr (.inr ⟨same, noAct⟩)
  cases call with
  | receive sender value =>
      simp only [execute, bind_eq_ok, pure, Except.pure, Except.ok.injEq] at executed
      obtain ⟨payment, received, rfl⟩ := executed
      rcases receive_userData user received with reset | same
      · exact .inl reset
      · exact .inr (.inr same)
  | createNewTask blockNumber sender call => exact others (createNewTask_unlockTime user executed) id
  | unlock sender timestamp =>
      simp only [execute, bind_eq_ok, pure, Except.pure, Except.ok.injEq] at executed
      obtain ⟨payment, unlocked, rfl⟩ := executed
      have time := unlock_unlockTime user unlocked
      by_cases same : sender = user
      · rw [if_pos same] at time
        subst same
        exact .inr (.inl ⟨timestamp, rfl, time⟩)
      · rw [if_neg same] at time
        exact .inr (.inr ⟨time, same⟩)
  | lock sender =>
      simp only [execute, bind_eq_ok, pure, Except.pure, Except.ok.injEq] at executed
      obtain ⟨payment, locked, rfl⟩ := executed
      have time := lock_unlockTime user locked
      by_cases same : sender = user
      · rw [if_pos same] at time
        exact .inl time
      · rw [if_neg same] at time
        exact .inr (.inr ⟨time, same⟩)
  | withdraw sender amount timestamp =>
      simp only [execute, withdraw, bind_eq_ok] at executed
      obtain ⟨payment, withdrawn, delivered⟩ := executed
      have time := (withdraw_unlockTime user withdrawn).2.2
      rcases deliver_unlockTime user delivered with reset | moved
      · exact .inl reset
      · change next.unlockTime user = (payment.userData user).unlockBlockTime at moved
        rw [time] at moved
        by_cases same : sender = user
        · rw [if_pos same] at moved
          exact .inl moved
        · rw [if_neg same] at moved
          exact .inr (.inr ⟨moved, same⟩)
  | withdrawFromServiceManager sender value amount withdrawAddress =>
      exact others (withdrawFromServiceManager_unlockTime user executed) id
  | setPaused sender paused =>
      simp only [execute, bind_eq_ok, pure, Except.pure, Except.ok.injEq] at executed
      obtain ⟨-, -, rfl⟩ := executed
      exact .inr (.inr ⟨rfl, id⟩)
  | manager call =>
      cases call with
      | withdraw sender amount => exact others (withdrawFromManager_unlockTime user executed) id
      | respondToTaskV2 sender gas check root batcher =>
          exact others (respondToTaskV2_unlockTime user executed) id
      | createNewTask | receive | depositToBatcher | setPaused | disableVerifier
      | enableVerifier | setDisabledVerifiers | setAggregator =>
          simp only [execute, bind_eq_ok, pure, Except.pure, Except.ok.injEq] at executed
          obtain ⟨manager, -, rfl⟩ := executed
          exact .inr (.inr ⟨rfl, id⟩)

theorem transact_unlockTime (ledger : Ledger) (transaction : Transaction) :
    (ledger.transact keccak transaction).unlockTime user = 0 ∨
      ledger.Unlocks keccak user transaction
        ((ledger.transact keccak transaction).unlockTime user) ∨
      ((ledger.transact keccak transaction).unlockTime user = ledger.unlockTime user ∧
        ¬ Touches keccak user ledger transaction) := by
  rw [transact]
  cases executed : ledger.execute keccak transaction.accepts transaction.call with
  | error reason =>
      refine .inr (.inr ⟨rfl, ?_⟩)
      rintro ⟨⟨next, succeeded⟩, -⟩
      rw [executed] at succeeded
      cases succeeded
  | ok next =>
      rcases execute_unlockTime user executed with reset | unlocked | ⟨same, noAct⟩
      · exact .inl reset
      · exact .inr (.inl ⟨⟨next, executed⟩, unlocked⟩)
      · exact .inr (.inr ⟨same, fun touched => noAct touched.2⟩)

end Ledger

/-- Behind every successful withdrawal there is an `unlock` of the same user
that is older by the delay, and since then the user has made no deposit and
called neither `unlock` nor `lock` nor `withdraw`. -/
theorem withdraw_after_unlock (keccak : Bytes → Bytes32) (ledger : Ledger)
    (locked : ∀ account, ledger.unlockTime account = 0)
    (transactions : List Ledger.Transaction) (user : Address) (amount timestamp : Nat)
    (accepts : Address → Bool)
    (withdrawn : (ledger.run keccak transactions).Succeeds keccak
      ⟨.withdraw user amount timestamp, accepts⟩) :
    ∃ before between unlockTimestamp unlockAccepts,
      transactions = before ++ ⟨.unlock user unlockTimestamp, unlockAccepts⟩ :: between ∧
      (ledger.run keccak before).Succeeds keccak
        ⟨.unlock user unlockTimestamp, unlockAccepts⟩ ∧
      unlockTimestamp + BatcherPaymentService.unlockBlockTime ≤ timestamp ∧
      Untouched (Ledger.transact keccak) (Ledger.Touches keccak user)
        (ledger.run keccak (before ++ [⟨.unlock user unlockTimestamp, unlockAccepts⟩]))
        between := by
  obtain ⟨next, executed⟩ := withdrawn
  simp only [Ledger.execute, Ledger.withdraw, bind_eq_ok] at executed
  obtain ⟨payment, withdrawn, -⟩ := executed
  obtain ⟨isSet, passed, -⟩ := Ledger.withdraw_unlockTime user withdrawn
  obtain ⟨before, ⟨call, unlockAccepts⟩, between, split, ⟨succeeded, unlockTimestamp, isUnlock,
      time⟩, untouched⟩ :=
    exists_last_setting (Ledger.transact_unlockTime user)
      (locked user) isSet
  change call = _ at isUnlock
  subst isUnlock
  refine ⟨before, between, unlockTimestamp, unlockAccepts, split, succeeded, ?_, ?_⟩
  · rw [← time]
    exact passed
  · rw [Ledger.run, List.foldl_append]
    exact untouched

/-- A deposit of user 1, and its `unlock` at time 100. -/
def Ledger.Sample.unlocked : List Ledger.Transaction :=
  [⟨.receive 1 100, fun _ => true⟩, ⟨.unlock 1 100, fun _ => true⟩]

theorem withdraw_after_unlock_single :
    ∃ before between unlockTimestamp unlockAccepts,
      Ledger.Sample.unlocked = before ++ ⟨.unlock 1 unlockTimestamp, unlockAccepts⟩ :: between ∧
      (Ledger.Sample.ledger.run Keccak256.keccak256 before).Succeeds Keccak256.keccak256
        ⟨.unlock 1 unlockTimestamp, unlockAccepts⟩ ∧
      unlockTimestamp + BatcherPaymentService.unlockBlockTime ≤ 3700 ∧
      Untouched (Ledger.transact Keccak256.keccak256) (Ledger.Touches Keccak256.keccak256 1)
        (Ledger.Sample.ledger.run Keccak256.keccak256
          (before ++ [⟨.unlock 1 unlockTimestamp, unlockAccepts⟩])) between :=
  withdraw_after_unlock Keccak256.keccak256 Ledger.Sample.ledger (fun _ => rfl)
    Ledger.Sample.unlocked 1 50 3700 (fun _ => true) ⟨_, rfl⟩

end AlignedLayer
