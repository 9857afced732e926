import AlignedLayer.Contracts.Ledger
import AlignedLayer.Library.Keccak256
import AlignedLayer.Library.Reserves

/-!
# Solvency of the two contracts

After any transactions each of the two contracts holds at least what it
records as the balances of its users.  Every operation moves ether together
with the record that stands for it: a debit is made before the transfer, and
`receive` credits or, for what the service manager returns, does not.
-/

namespace AlignedLayer

namespace BatcherPaymentService

/-- The balances that are written down in some user data. -/
def recorded (userData : Address → UserInfo) (account : Address) : Nat :=
  (userData account).balance

theorem recorded_update (userData : Address → UserInfo) (account : Address) (user : UserInfo) :
    recorded (Function.update userData account user) =
      Function.update (recorded userData) account user.balance :=
  Function.comp_update UserInfo.balance userData account user

/-- The payment service pays to this service manager, and its ether covers the
recorded balances. -/
structure State.Solvent (manager : Address) (state : State) : Prop where
  linked : state.alignedLayerServiceManager = manager
  covers : Covers state.ethBalance (recorded state.userData)

section

variable {manager sender : Address} {state next : State} {amount timestamp : Nat}

theorem receive_solvent (solvent : state.Solvent manager)
    (received : receive sender amount state = .ok next) : next.Solvent manager := by
  rw [receive] at received
  split at received
  · cases received
    exact ⟨solvent.linked, solvent.covers.mono (Nat.le_add_right _ _)⟩
  · simp only [bind_eq_ok, checkedAdd_eq_ok, pure, Except.pure, Except.ok.injEq] at received
    obtain ⟨balance, ⟨-, rfl⟩, rfl⟩ := received
    refine ⟨solvent.linked, ?_⟩
    rw [recorded_update]
    exact solvent.covers.credit

/-- What the service manager sends is credited to nobody. -/
theorem receive_from_manager (solvent : state.Solvent manager)
    (received : receive manager amount state = .ok next) :
    next = { state with ethBalance := state.ethBalance + amount } := by
  rw [receive, if_pos solvent.linked.symm] at received
  cases received
  rfl

/-- An operation on one user that leaves its balance alone. -/
theorem State.Solvent.update {user : UserInfo} (solvent : state.Solvent manager)
    (same : user.balance = (state.userData sender).balance) :
    ({ state with userData := Function.update state.userData sender user } : State).Solvent
      manager := by
  refine ⟨solvent.linked, ?_⟩
  have unchanged := Function.update_eq_self sender (recorded state.userData)
  rw [recorded] at unchanged
  rw [recorded_update, same, unchanged]
  exact solvent.covers

theorem unlock_solvent (solvent : state.Solvent manager)
    (unlocked : unlock sender timestamp state = .ok next) : next.Solvent manager := by
  simp only [unlock, bind_eq_ok, pure, Except.pure, Except.ok.injEq] at unlocked
  obtain ⟨-, -, -, -, unlockTime, -, rfl⟩ := unlocked
  exact solvent.update rfl

theorem lock_solvent (solvent : state.Solvent manager)
    (locked : lock sender state = .ok next) : next.Solvent manager := by
  simp only [lock, bind_eq_ok, pure, Except.pure, Except.ok.injEq] at locked
  obtain ⟨-, -, -, -, rfl⟩ := locked
  exact solvent.update rfl

theorem withdraw_solvent (solvent : state.Solvent manager)
    (withdrawn : withdraw sender amount timestamp state = .ok next) : next.Solvent manager := by
  simp only [withdraw, bind_eq_ok, revertIf_eq_ok, pure, Except.pure, Except.ok.injEq] at withdrawn
  obtain ⟨-, -, -, enough, -, -, -, -, rfl⟩ := withdrawn
  refine ⟨solvent.linked, ?_⟩
  rw [recorded_update]
  exact solvent.covers.debit (Nat.not_lt.mp enough)

/-- The fees of all submitters leave the balances they were taken from. -/
theorem decreaseUserBalances_covers {feePerProof index reserve : Nat}
    {proofSubmitters : List Address} {userData after : Address → UserInfo}
    (covers : Covers reserve (recorded userData))
    (charged : decreaseUserBalances feePerProof index proofSubmitters userData = .ok after) :
    Covers (reserve - feePerProof * proofSubmitters.length) (recorded after) := by
  induction proofSubmitters generalizing index reserve userData with
  | nil =>
      rw [decreaseUserBalances, Except.ok.injEq] at charged
      subst charged
      exact covers
  | cons proofSubmitter rest induction =>
      simp only [decreaseUserBalances, bind_eq_ok, revertIf_eq_ok] at charged
      obtain ⟨-, enough, nonce, -, -, -, later⟩ := charged
      have debited : Covers (reserve - feePerProof) (recorded (Function.update userData
          proofSubmitter { userData proofSubmitter with
            balance := (userData proofSubmitter).balance - feePerProof, nonce := nonce })) := by
        rw [recorded_update]
        exact covers.debit (Nat.not_lt.mp enough)
      have rest := induction debited later
      rw [Nat.sub_sub, Nat.add_comm, ← Nat.mul_succ] at rest
      exact rest

theorem createNewTask_solvent {keccak : Bytes → Bytes32} {blockNumber : Nat}
    {call : CreateNewTask} {managed after : AlignedLayerServiceManager.State}
    (solvent : state.Solvent manager)
    (created : createNewTask keccak blockNumber sender call state managed = .ok (next, after)) :
    next.Solvent manager ∧ AlignedLayerServiceManager.createNewTask keccak blockNumber
      ⟨state.self, call.feeForAggregator⟩ call.batchMerkleRoot call.respondToTaskFeeLimit
        managed = .ok after := by
  simp only [createNewTask, bind_eq_ok, revertIf_eq_ok, checkedMul_eq_ok, pure, Except.pure,
    Except.ok.injEq, Prod.mk.injEq] at created
  obtain ⟨-, -, -, -, -, -, -, -, total, ⟨-, rfl⟩, -, -, userData, charged, -, -, middle, answered,
    -, -, rfl, rfl⟩ := created
  exact ⟨⟨solvent.linked, decreaseUserBalances_covers solvent.covers charged⟩, answered⟩

end

end BatcherPaymentService

namespace AlignedLayerServiceManager

namespace Contract

/-- The ether of the contract at this address covers the recorded balances. -/
structure Solvent (address : Address) (contract : Contract) : Prop where
  self : contract.self = address
  covers : Covers contract.ethBalance contract.batchersBalances

variable {keccak : Bytes → Bytes32} {address sender : Address} {contract next : Contract}
  {amount : Nat}

theorem deposit_solvent {account : Address} (solvent : contract.Solvent address)
    (deposited : contract.deposit account amount = .ok next) : next.Solvent address := by
  simp only [deposit, bind_eq_ok, checkedAdd_eq_ok, pure, Except.pure, Except.ok.injEq] at deposited
  obtain ⟨-, -, balance, ⟨-, rfl⟩, rfl⟩ := deposited
  exact ⟨solvent.self, solvent.covers.credit⟩

theorem receive_solvent {message : Message} (solvent : contract.Solvent address)
    (received : contract.receive message = .ok next) : next.Solvent address := by
  simp only [receive, bind_eq_ok] at received
  obtain ⟨-, -, deposited⟩ := received
  exact deposit_solvent solvent deposited

theorem withdraw_solvent (solvent : contract.Solvent address)
    (withdrawn : contract.withdraw sender amount = .ok next) : next.Solvent address := by
  simp only [withdraw, bind_eq_ok, revertIf_eq_ok, pure, Except.pure, Except.ok.injEq] at withdrawn
  obtain ⟨-, -, -, enough, -, -, rfl⟩ := withdrawn
  exact ⟨solvent.self, solvent.covers.debit (Nat.not_lt.mp enough)⟩

/-- The ether that comes with a task is credited to its sender. -/
theorem createdTask_solvent {blockNumber limit : Nat} {message : Message} {root : Bytes32}
    {state : State} (solvent : contract.Solvent address)
    (created : AlignedLayerServiceManager.createNewTask keccak blockNumber message root limit
      contract.state = .ok state) :
    ({ contract.withState state with
      ethBalance := contract.ethBalance + message.value } : Contract).Solvent address := by
  simp only [AlignedLayerServiceManager.createNewTask, bind_eq_ok, checkedAdd_eq_ok, pure,
    Except.pure, Except.ok.injEq] at created
  obtain ⟨-, -, -, -, balance, ⟨-, rfl⟩, -, -, rfl⟩ := created
  exact ⟨solvent.self, solvent.covers.credit⟩

/-- The aggregator is paid at most the limit, which the balance was seen to
cover. -/
theorem respondToTaskV2_solvent {senderAddress : Address} {gas : Gas}
    {checkSignatures : Bytes32 → Nat → Except Revert QuorumStakeTotals}
    {root : Bytes32} (solvent : contract.Solvent address)
    (responded : contract.respondToTaskV2 keccak sender gas checkSignatures root senderAddress =
      .ok (next, amount)) : next.Solvent address := by
  simp only [respondToTaskV2, bind_eq_ok, revertIf_eq_ok, pure, Except.pure, Except.ok.injEq,
    Prod.mk.injEq] at responded
  obtain ⟨-, -, -, -, -, -, -, -, -, enough, totals, -, -, -, txCost, -, -, -, rfl, rfl⟩ := responded
  have paid := Nat.le_trans (Nat.min_le_right txCost
    (contract.batchesState (batchIdentifier keccak root senderAddress)).respondToTaskFeeLimit)
    (Nat.not_lt.mp enough)
  exact ⟨solvent.self, solvent.covers.debit paid⟩

theorem execute_solvent {call : Call} (solvent : contract.Solvent address)
    (executed : contract.execute keccak call = .ok next) : next.Solvent address := by
  cases call with
  | createNewTask blockNumber message root limit =>
      simp only [execute, createNewTask, bind_eq_ok, pure, Except.pure, Except.ok.injEq] at executed
      obtain ⟨state, created, rfl⟩ := executed
      exact createdTask_solvent solvent created
  | respondToTaskV2 sender gas check root batcher =>
      simp only [execute, bind_eq_ok, Prod.exists, pure, Except.pure, Except.ok.injEq] at executed
      obtain ⟨answered, paid, responded, rfl⟩ := executed
      exact respondToTaskV2_solvent solvent responded
  | withdraw sender amount => exact withdraw_solvent solvent executed
  | receive message => exact receive_solvent solvent executed
  | depositToBatcher account value =>
      simp only [execute, depositToBatcher, bind_eq_ok] at executed
      obtain ⟨-, -, deposited⟩ := executed
      exact deposit_solvent solvent deposited
  | setPaused status =>
      cases executed
      exact ⟨solvent.self, solvent.covers⟩
  | disableVerifier | enableVerifier | setDisabledVerifiers | setAggregator =>
      simp only [execute, disableVerifier, enableVerifier, setDisabledVerifiers, setAggregator,
        bind_eq_ok, pure, Except.pure, Except.ok.injEq] at executed
      obtain ⟨-, -, rfl⟩ := executed
      exact ⟨solvent.self, solvent.covers⟩

end Contract

end AlignedLayerServiceManager

namespace Ledger

open BatcherPaymentService AlignedLayerServiceManager

structure Solvent (address : Address) (ledger : Ledger) : Prop where
  payment : ledger.payment.Solvent address
  manager : ledger.manager.Solvent address

variable {keccak : Bytes → Bytes32} {accepts : Address → Bool} {address sender : Address}
  {ledger next : Ledger} {amount : Nat}

theorem deliver_solvent {recipient : Address} (solvent : ledger.Solvent address)
    (delivered : ledger.deliver accepts sender recipient amount = .ok next) :
    next.Solvent address := by
  simp only [deliver, bind_eq_ok] at delivered
  obtain ⟨-, -, delivered⟩ := delivered
  split at delivered
  · simp only [bind_eq_ok, pure, Except.pure, Except.ok.injEq] at delivered
    obtain ⟨payment, received, rfl⟩ := delivered
    exact ⟨receive_solvent solvent.payment received, solvent.manager⟩
  · split at delivered
    · simp only [bind_eq_ok, pure, Except.pure, Except.ok.injEq] at delivered
      obtain ⟨manager, received, rfl⟩ := delivered
      exact ⟨solvent.payment, Contract.receive_solvent solvent.manager received⟩
    · cases delivered
      exact solvent

theorem createNewTask_solvent {blockNumber : Nat} {call : CreateNewTask}
    (solvent : ledger.Solvent address)
    (created : ledger.createNewTask keccak accepts blockNumber sender call = .ok next) :
    next.Solvent address := by
  simp only [createNewTask, bind_eq_ok, Prod.exists] at created
  obtain ⟨payment, managed, charged, delivered⟩ := created
  obtain ⟨paid, answered⟩ := BatcherPaymentService.createNewTask_solvent solvent.payment charged
  have funded := Contract.createdTask_solvent solvent.manager answered
  refine deliver_solvent ?_ delivered
  exact ⟨paid, funded⟩

theorem withdraw_solvent {timestamp : Nat} (solvent : ledger.Solvent address)
    (withdrawn : ledger.withdraw accepts sender amount timestamp = .ok next) :
    next.Solvent address := by
  simp only [withdraw, bind_eq_ok] at withdrawn
  obtain ⟨payment, debited, delivered⟩ := withdrawn
  refine deliver_solvent ?_ delivered
  exact ⟨BatcherPaymentService.withdraw_solvent solvent.payment debited, solvent.manager⟩

theorem withdrawFromManager_solvent (solvent : ledger.Solvent address)
    (withdrawn : ledger.withdrawFromManager accepts sender amount = .ok next) :
    next.Solvent address := by
  simp only [withdrawFromManager, bind_eq_ok] at withdrawn
  obtain ⟨manager, debited, delivered⟩ := withdrawn
  refine deliver_solvent ?_ delivered
  exact ⟨solvent.payment, Contract.withdraw_solvent solvent.manager debited⟩

/-- What the payment service withdraws adds to its ether, and to no balance. -/
theorem withdrawFromManager_payment (solvent : ledger.Solvent address)
    (withdrawn : ledger.withdrawFromManager accepts ledger.payment.self amount = .ok next) :
    next.payment = { ledger.payment with ethBalance := ledger.payment.ethBalance + amount } := by
  simp only [withdrawFromManager, bind_eq_ok, deliver, if_true] at withdrawn
  obtain ⟨manager, debited, -, -, received⟩ := withdrawn
  simp only [pure, Except.pure, Except.ok.injEq] at received
  obtain ⟨payment, received, rfl⟩ := received
  rw [(Contract.withdraw_solvent solvent.manager debited).self] at received
  exact receive_from_manager solvent.payment received

/-- The owner sends on what came back from the service manager. -/
theorem withdrawFromServiceManager_solvent {withdrawAddress : Address} {value : Nat}
    (solvent : ledger.Solvent address)
    (withdrawn : ledger.withdrawFromServiceManager accepts sender value amount withdrawAddress =
      .ok next) : next.Solvent address := by
  simp only [withdrawFromServiceManager, bind_eq_ok] at withdrawn
  obtain ⟨-, -, returned, fromManager, -, -, delivered⟩ := withdrawn
  have funded : (⟨{ ledger.payment with ethBalance := ledger.payment.ethBalance + value },
      ledger.owner, ledger.manager⟩ : Ledger).Solvent address :=
    ⟨⟨solvent.payment.linked, solvent.payment.covers.mono (Nat.le_add_right _ _)⟩,
      solvent.manager⟩
  have payment := withdrawFromManager_payment funded fromManager
  have returnedSolvent := withdrawFromManager_solvent funded fromManager
  refine deliver_solvent ?_ delivered
  constructor
  · rw [payment]
    refine ⟨solvent.payment.linked, ?_⟩
    rw [Nat.add_sub_cancel]
    exact funded.payment.covers
  · exact returnedSolvent.manager

theorem respondToTaskV2_solvent {senderAddress : Address} {gas : Gas}
    {checkSignatures : Bytes32 → Nat → Except Revert QuorumStakeTotals}
    {root : Bytes32} (solvent : ledger.Solvent address)
    (responded : ledger.respondToTaskV2 keccak accepts sender gas checkSignatures root
      senderAddress = .ok next) : next.Solvent address := by
  simp only [respondToTaskV2, bind_eq_ok, Prod.exists] at responded
  obtain ⟨manager, transferAmount, answered, delivered⟩ := responded
  refine deliver_solvent ?_ delivered
  exact ⟨solvent.payment, Contract.respondToTaskV2_solvent solvent.manager answered⟩

theorem execute_solvent {call : Call} (solvent : ledger.Solvent address)
    (executed : ledger.execute keccak accepts call = .ok next) : next.Solvent address := by
  cases call with
  | receive sender value =>
      simp only [execute, bind_eq_ok, pure, Except.pure, Except.ok.injEq] at executed
      obtain ⟨payment, received, rfl⟩ := executed
      exact ⟨receive_solvent solvent.payment received, solvent.manager⟩
  | createNewTask blockNumber sender call => exact createNewTask_solvent solvent executed
  | unlock sender timestamp =>
      simp only [execute, bind_eq_ok, pure, Except.pure, Except.ok.injEq] at executed
      obtain ⟨payment, unlocked, rfl⟩ := executed
      exact ⟨unlock_solvent solvent.payment unlocked, solvent.manager⟩
  | lock sender =>
      simp only [execute, bind_eq_ok, pure, Except.pure, Except.ok.injEq] at executed
      obtain ⟨payment, locked, rfl⟩ := executed
      exact ⟨lock_solvent solvent.payment locked, solvent.manager⟩
  | withdraw sender amount timestamp => exact withdraw_solvent solvent executed
  | withdrawFromServiceManager sender value amount withdrawAddress =>
      exact withdrawFromServiceManager_solvent solvent executed
  | setPaused sender paused =>
      simp only [execute, bind_eq_ok, pure, Except.pure, Except.ok.injEq] at executed
      obtain ⟨-, -, rfl⟩ := executed
      exact ⟨⟨solvent.payment.linked, solvent.payment.covers⟩, solvent.manager⟩
  | manager call =>
      cases call with
      | withdraw sender amount => exact withdrawFromManager_solvent solvent executed
      | respondToTaskV2 sender gas check root batcher =>
          exact respondToTaskV2_solvent solvent executed
      | createNewTask | receive | depositToBatcher | setPaused | disableVerifier
      | enableVerifier | setDisabledVerifiers | setAggregator =>
          simp only [execute, bind_eq_ok, pure, Except.pure, Except.ok.injEq] at executed
          obtain ⟨manager, done, rfl⟩ := executed
          exact ⟨solvent.payment, Contract.execute_solvent solvent.manager done⟩

theorem transact_solvent {transaction : Transaction} (solvent : ledger.Solvent address) :
    (ledger.transact keccak transaction).Solvent address := by
  rw [transact]
  split
  · rename_i next executed
    exact execute_solvent solvent executed
  · exact solvent

theorem run_solvent (transactions : List Transaction) (solvent : ledger.Solvent address) :
    (ledger.run keccak transactions).Solvent address := by
  induction transactions generalizing ledger with
  | nil => exact solvent
  | cons transaction rest induction =>
      rw [run, List.foldl_cons]
      exact induction (transact_solvent solvent)

/-- The contracts as they are deployed: linked, and nothing recorded yet. -/
structure Deployed (ledger : Ledger) : Prop where
  linked : ledger.payment.alignedLayerServiceManager = ledger.manager.self
  payment : ∀ account, (ledger.payment.userData account).balance = 0
  manager : ∀ account, ledger.manager.batchersBalances account = 0

theorem Deployed.solvent (deployed : ledger.Deployed) : ledger.Solvent ledger.manager.self :=
  ⟨⟨deployed.linked, .of_zero deployed.payment⟩, ⟨rfl, .of_zero deployed.manager⟩⟩

end Ledger

/-- After any transactions the ether of each contract is at least the sum of
the balances it records, and a transaction that reverts has no effect. -/
theorem contracts_solvent (keccak : Bytes → Bytes32) (ledger : Ledger) (deployed : ledger.Deployed)
    (transactions : List Ledger.Transaction) :
    let reached := ledger.run keccak transactions
    (∀ accounts : Finset Address,
      ∑ account ∈ accounts, (reached.payment.userData account).balance ≤
        reached.payment.ethBalance) ∧
    (∀ accounts : Finset Address,
      ∑ account ∈ accounts, reached.manager.batchersBalances account ≤
        reached.manager.ethBalance) ∧
    ∀ (transaction : Ledger.Transaction) (reason : Revert),
      reached.execute keccak transaction.accepts transaction.call = .error reason →
        ledger.run keccak (transactions ++ [transaction]) = reached := by
  have solvent : (ledger.run keccak transactions).Solvent ledger.manager.self :=
    Ledger.run_solvent transactions deployed.solvent
  refine ⟨solvent.payment.covers, solvent.manager.covers, ?_⟩
  intro transaction reason reverted
  rw [Ledger.run, List.foldl_append]
  change Ledger.transact keccak (ledger.run keccak transactions) transaction = _
  rw [Ledger.transact, reverted]

namespace Ledger.Sample

/-- The payment service at address 7 and the service manager at address 8. -/
def ledger : Ledger :=
  { payment :=
      { self := 7
        ethBalance := 0
        alignedLayerServiceManager := 8
        batcherWallet := 6
        paused := false
        userData := fun _ => ⟨0, 0, 0⟩ }
    owner := 4
    manager :=
      { self := 8
        ethBalance := 0
        owner := 4
        alignedAggregator := 5
        disabledVerifiers := 0
        pausedStatus := 0
        batchesState := fun _ => ⟨0, false, 0⟩
        batchersBalances := fun _ => 0 } }

/-- A deposit, a batch of two proofs, and a withdrawal of what the batcher has
left at the service manager. -/
def transactions : List Transaction :=
  [⟨.receive 1 100, fun _ => true⟩,
    ⟨.createNewTask 9 6 ⟨Vector.replicate 32 0, [1, 1], 20, 15, 10⟩, fun _ => true⟩,
    ⟨.withdrawFromServiceManager 4 0 5 3, fun _ => true⟩]

end Ledger.Sample

theorem contracts_solvent_batchOfTwo :
    let reached := Ledger.Sample.ledger.run Keccak256.keccak256 Ledger.Sample.transactions
    reached.payment.ethBalance = 70 ∧ reached.manager.ethBalance = 15 ∧
      (reached.payment.userData 1).balance = 70 ∧
      ∑ account ∈ {1, 2}, (reached.payment.userData account).balance ≤
        reached.payment.ethBalance ∧
      ∑ account ∈ {7}, reached.manager.batchersBalances account ≤ reached.manager.ethBalance := by
  have solvent := contracts_solvent Keccak256.keccak256 Ledger.Sample.ledger
    ⟨rfl, fun _ => rfl, fun _ => rfl⟩ Ledger.Sample.transactions
  refine ⟨?_, ?_, ?_, solvent.1 {1, 2}, solvent.2.1 {7}⟩
  · decide +kernel
  · decide +kernel
  · decide +kernel

end AlignedLayer
