import AlignedLayer.Contracts.Charging
import AlignedLayer.Contracts.Solvency
import Mathlib.Algebra.BigOperators.Group.List.Lemmas
import Mathlib.Algebra.BigOperators.Ring.List

/-!
# Where the fees of a task go

`createNewTask` takes the fee from every listed submitter once for each of its
occurrences.  What it takes goes to the service manager, up to the fee for the
aggregator, and otherwise to the wallet of the batcher.
-/

namespace AlignedLayer

/-- What a task credits to its sender. -/
theorem AlignedLayerServiceManager.createNewTask_credits {keccak : Bytes → Bytes32}
    {blockNumber : Nat} {message : Message} {batchMerkleRoot : Bytes32}
    {respondToTaskFeeLimit : Nat} {state next : State}
    (created : createNewTask keccak blockNumber message batchMerkleRoot respondToTaskFeeLimit
      state = .ok next) :
    next.batchersBalances = Function.update state.batchersBalances message.sender
      (state.batchersBalances message.sender + message.value) := by
  simp only [createNewTask, bind_eq_ok, checkedAdd_eq_ok, pure, Except.pure, Except.ok.injEq]
    at created
  obtain ⟨-, -, -, -, balance, ⟨-, rfl⟩, -, -, rfl⟩ := created
  rfl

namespace BatcherPaymentService

/-- What `createNewTask` transfers to the wallet of the batcher. -/
def CreateNewTask.walletTransfer (call : CreateNewTask) : Nat :=
  call.feePerProof * call.proofSubmitters.length - call.feeForAggregator

/-- The fees that are taken from the listed users, each counted once. -/
def deducted (call : CreateNewTask) (before after : State) : Nat :=
  (call.proofSubmitters.dedup.map fun user =>
    userBalances before user - userBalances after user).sum

/-- The ether of a successful call and what it is split into. -/
theorem createNewTask_pays {keccak : Bytes → Bytes32} {blockNumber : Nat} {sender : Address}
    {call : CreateNewTask} {state after : State}
    {manager managed : AlignedLayerServiceManager.State}
    (created : createNewTask keccak blockNumber sender call state manager =
      .ok (after, managed)) :
    sender = state.batcherWallet ∧
      call.feePerProof * call.proofSubmitters.length =
        call.feeForAggregator + call.walletTransfer ∧
      state.ethBalance = after.ethBalance + call.feeForAggregator + call.walletTransfer ∧
      after.self = state.self ∧ after.batcherWallet = state.batcherWallet := by
  simp only [createNewTask, bind_eq_ok, revertIf_eq_ok, checkedMul_eq_ok, pure, Except.pure,
    Except.ok.injEq, Prod.mk.injEq] at created
  obtain ⟨-, wallet, -, -, -, -, -, -, total, ⟨-, rfl⟩, -, exceeds, userData, -, -, -, other, -,
    -, held, rfl, -⟩ := created
  have split : call.feePerProof * call.proofSubmitters.length =
      call.feeForAggregator + call.walletTransfer := by
    rw [CreateNewTask.walletTransfer]
    omega
  refine ⟨not_not.mp wallet, split, ?_, rfl, rfl⟩
  dsimp only
  omega

end BatcherPaymentService

namespace Ledger

open BatcherPaymentService

variable {keccak : Bytes → Bytes32} {accepts : Address → Bool} {sender recipient : Address}
  {ledger next : Ledger} {amount : Nat}

/-- Ether that goes to neither contract changes nothing in the ledger. -/
theorem deliver_elsewhere
    (delivered : ledger.deliver accepts sender recipient amount = .ok next)
    (notPayment : recipient ≠ ledger.payment.self)
    (notManager : recipient ≠ ledger.manager.self) : next = ledger := by
  simp only [deliver, bind_eq_ok, if_neg notPayment, if_neg notManager] at delivered
  obtain ⟨-, -, delivered⟩ := delivered
  cases delivered
  rfl

/-- A successful `createNewTask` called by the batcher charges every listed
user for exactly its occurrences, leaves all others alone, and passes on what
it takes; one that reverts changes nothing. -/
theorem createNewTask_charges_occurrences (keccak : Bytes → Bytes32) (accepts : Address → Bool)
    (blockNumber : Nat) (call : CreateNewTask) (ledger : Ledger)
    (notPayment : ledger.payment.batcherWallet ≠ ledger.payment.self)
    (notManager : ledger.payment.batcherWallet ≠ ledger.manager.self) :
    (∀ next, ledger.createNewTask keccak accepts blockNumber ledger.payment.batcherWallet call =
        .ok next →
      (∀ user, call.proofSubmitters.count user * call.feePerProof ≤
          userBalances ledger.payment user ∧
        userBalances next.payment user = userBalances ledger.payment user -
          call.proofSubmitters.count user * call.feePerProof ∧
        userNonces next.payment user = userNonces ledger.payment user +
          call.proofSubmitters.count user ∧
        userUnlockBlock next.payment user = userUnlockBlock ledger.payment user) ∧
      (∀ user, user ∉ call.proofSubmitters →
        next.payment.userData user = ledger.payment.userData user) ∧
      deducted call ledger.payment next.payment = call.feeForAggregator + call.walletTransfer ∧
      ledger.payment.ethBalance =
        next.payment.ethBalance + call.feeForAggregator + call.walletTransfer ∧
      next.manager.ethBalance = ledger.manager.ethBalance + call.feeForAggregator ∧
      next.manager.batchersBalances = Function.update ledger.manager.batchersBalances
        ledger.payment.self
        (ledger.manager.batchersBalances ledger.payment.self + call.feeForAggregator)) ∧
    ∀ sender error, ledger.createNewTask keccak accepts blockNumber sender call = .error error →
      ledger.transact keccak ⟨.createNewTask blockNumber sender call, accepts⟩ = ledger := by
  constructor
  · intro next created
    simp only [createNewTask, bind_eq_ok, Prod.exists] at created
    obtain ⟨payment, managed, charged, delivered⟩ := created
    obtain ⟨-, split, ether, self, wallet⟩ := createNewTask_pays charged
    obtain ⟨decreased, answered⟩ := createNewTask_ok charged
    have credits := AlignedLayerServiceManager.createNewTask_credits answered
    rw [wallet, self] at delivered
    have elsewhere : ledger.payment.batcherWallet ≠ payment.self := by
      rw [self]
      exact notPayment
    obtain rfl := deliver_elsewhere delivered elsewhere notManager
    have users : ∀ user, call.feePerProof * call.proofSubmitters.count user ≤
          userBalances ledger.payment user ∧
        payment.userData user = (ledger.payment.userData user).charged call.feePerProof
          (call.proofSubmitters.count user) :=
      fun user => decreaseUserBalances_ok decreased user
    refine ⟨?_, ?_, ?_, ether, rfl, credits⟩
    · intro user
      obtain ⟨enough, after⟩ := users user
      rw [Nat.mul_comm]
      refine ⟨enough, ?_, ?_, ?_⟩
      · exact congrArg UserInfo.balance after
      · exact congrArg UserInfo.nonce after
      · exact (congrArg UserInfo.unlockBlockTime after :)
    · intro user unlisted
      simp only [(users user).2, List.count_eq_zero_of_not_mem unlisted, UserInfo.charged,
        Nat.mul_zero, Nat.sub_zero, Nat.add_zero]
    · have taken : ∀ user, userBalances ledger.payment user - userBalances payment user =
          call.feePerProof * call.proofSubmitters.count user := by
        intro user
        obtain ⟨enough, after⟩ := users user
        simp only [userBalances, after, UserInfo.charged] at enough ⊢
        omega
      rw [← split, deducted]
      simp only [taken]
      rw [List.sum_map_mul_left, List.sum_map_count_dedup_eq_length]
  · intro sender error failed
    simp only [transact, execute, failed]

/-- A user with two proofs between which another one is listed. -/
def Sample.repeatedSubmitter : CreateNewTask :=
  ⟨Bytes32.zero, [1, 2, 1], 20, 15, 10⟩

def Sample.funded : Ledger :=
  { Sample.ledger with
    payment := { Sample.ledger.payment with
      ethBalance := 100
      userData := fun account => if account = 1 then ⟨60, 0, 0⟩ else ⟨40, 0, 5⟩ } }

theorem createNewTask_charges_occurrences_repeated :
    ∃ next, Sample.funded.createNewTask (fun _ => Bytes32.zero) (fun _ => true) 9 6
        Sample.repeatedSubmitter = .ok next ∧
      userBalances next.payment 1 = 30 ∧ userNonces next.payment 1 = 2 ∧
      deducted Sample.repeatedSubmitter Sample.funded.payment next.payment = 45 := by
  obtain ⟨charges, -⟩ := createNewTask_charges_occurrences (fun _ => Bytes32.zero)
    (fun _ => true) 9 Sample.repeatedSubmitter Sample.funded (by decide) (by decide)
  obtain ⟨users, -, total, -⟩ := charges _ rfl
  exact ⟨_, rfl, (users 1).2.1, (users 1).2.2.1, total⟩

end Ledger

end AlignedLayer
