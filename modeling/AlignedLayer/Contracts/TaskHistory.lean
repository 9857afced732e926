import AlignedLayer.Contracts.ServiceManager
import Mathlib.Data.List.Induction

/-!
# The history of a task

Any sequence of transactions reaches the service manager, and the ones that
revert change nothing.  What the contract stores about a task tells which
calls have succeeded: somebody created it, and the aggregator answered it with
signatures that passed the quorum check.
-/

namespace AlignedLayer.AlignedLayerServiceManager

inductive Call where
  | createNewTask (blockNumber : Nat) (message : Message) (batchMerkleRoot : Bytes32)
      (respondToTaskFeeLimit : Nat)
  | respondToTaskV2 (sender : Address) (gas : Gas)
      (checkSignatures : Bytes32 → Nat → Except Revert QuorumStakeTotals)
      (batchMerkleRoot : Bytes32) (senderAddress : Address)
  | disableVerifier (sender : Address) (verifierIdx : UInt8)
  | enableVerifier (sender : Address) (verifierIdx : UInt8)
  | setDisabledVerifiers (sender : Address) (bitmap : Nat)
  | setAggregator (sender alignedAggregator : Address)
  | withdraw (sender : Address) (amount : Nat)
  | depositToBatcher (account : Address) (value : Nat)
  | receive (message : Message)
  /-- `pause` and `unpause`, by those who may. -/
  | setPaused (pausedStatus : Nat)

variable (keccak : Bytes → Bytes32)

namespace Contract

def execute (call : Call) (contract : Contract) : Except Revert Contract :=
  match call with
  | .createNewTask blockNumber message batchMerkleRoot respondToTaskFeeLimit =>
      contract.createNewTask keccak blockNumber message batchMerkleRoot respondToTaskFeeLimit
  | .respondToTaskV2 sender gas checkSignatures batchMerkleRoot senderAddress => do
      let (next, _) ← contract.respondToTaskV2 keccak sender gas checkSignatures
        batchMerkleRoot senderAddress
      return next
  | .disableVerifier sender verifierIdx => contract.disableVerifier sender verifierIdx
  | .enableVerifier sender verifierIdx => contract.enableVerifier sender verifierIdx
  | .setDisabledVerifiers sender bitmap => contract.setDisabledVerifiers sender bitmap
  | .setAggregator sender alignedAggregator => contract.setAggregator sender alignedAggregator
  | .withdraw sender amount => contract.withdraw sender amount
  | .depositToBatcher account value => contract.depositToBatcher account value
  | .receive message => contract.receive message
  | .setPaused pausedStatus => .ok { contract with pausedStatus := pausedStatus }

/-- A transaction that reverts changes nothing. -/
def transact (contract : Contract) (call : Call) : Contract :=
  match contract.execute keccak call with
  | .ok next => next
  | .error _ => contract

def run (calls : List Call) (contract : Contract) : Contract :=
  calls.foldl (transact keccak) contract

/-- No task yet. -/
structure Fresh (contract : Contract) : Prop where
  created : ∀ identifier, (contract.batchesState identifier).taskCreatedBlock = 0
  responded : ∀ identifier, (contract.batchesState identifier).responded = false

theorem run_concat (calls : List Call) (call : Call) (contract : Contract) :
    contract.run keccak (calls ++ [call]) = transact keccak (contract.run keccak calls) call := by
  simp [run]

end Contract

/-! ## Calls that succeeded -/

section

variable (deployed : Contract)

/-- The call came after the calls `before`, and succeeded. -/
def Happened (calls before : List Call) (call : Call) : Prop :=
  (∃ later, calls = before ++ call :: later) ∧
    ∃ next, (deployed.run keccak before).execute keccak call = .ok next

def TaskCreated (calls : List Call) (batchMerkleRoot : Bytes32) (sender : Address) : Prop :=
  ∃ before blockNumber message respondToTaskFeeLimit, message.sender = sender ∧
    Happened keccak deployed calls before
      (.createNewTask blockNumber message batchMerkleRoot respondToTaskFeeLimit)

/-- The signers of the first quorum hold the required share. -/
def QuorumStakeTotals.PassesQuorum (totals : QuorumStakeTotals) : Prop :=
  ∃ signed total, totals.signedStakeForQuorum[0]? = some signed ∧
    totals.totalStakeForQuorum[0]? = some total ∧
    total * quorumThresholdPercentage ≤ signed * thresholdDenominator

/-- A created task was answered with signatures of the quorum. -/
def TaskAnswered (calls : List Call) (batchMerkleRoot : Bytes32) (sender : Address) : Prop :=
  ∃ before caller gas checkSignatures block totals,
    TaskCreated keccak deployed before batchMerkleRoot sender ∧
    Happened keccak deployed calls before
      (.respondToTaskV2 caller gas checkSignatures batchMerkleRoot sender) ∧
    checkSignatures (batchIdentifier keccak batchMerkleRoot sender) block = .ok totals ∧
    totals.PassesQuorum

end

variable {keccak} {deployed contract next : Contract} {calls before : List Call} {call : Call}

theorem Happened.append (happened : Happened keccak deployed calls before call)
    (later : List Call) : Happened keccak deployed (calls ++ later) before call := by
  obtain ⟨⟨rest, rfl⟩, succeeded⟩ := happened
  exact ⟨⟨rest ++ later, by simp⟩, succeeded⟩

theorem TaskCreated.append {batchMerkleRoot : Bytes32} {sender : Address}
    (created : TaskCreated keccak deployed calls batchMerkleRoot sender) (later : List Call) :
    TaskCreated keccak deployed (calls ++ later) batchMerkleRoot sender := by
  obtain ⟨before, blockNumber, message, limit, same, happened⟩ := created
  exact ⟨before, blockNumber, message, limit, same, happened.append later⟩

namespace Contract

theorem createNewTask_ok {blockNumber : Nat} {message : Message} {batchMerkleRoot : Bytes32}
    {respondToTaskFeeLimit : Nat}
    (created : contract.createNewTask keccak blockNumber message batchMerkleRoot
      respondToTaskFeeLimit = .ok next) :
    let identifier := batchIdentifier keccak batchMerkleRoot message.sender
    (contract.batchesState identifier).taskCreatedBlock = 0 ∧
      next.batchesState = Function.update contract.batchesState identifier
        { taskCreatedBlock := blockNumber % 2 ^ 32
          responded := false
          respondToTaskFeeLimit := respondToTaskFeeLimit } := by
  simp only [createNewTask, AlignedLayerServiceManager.createNewTask, bind_eq_ok,
    revertIf_eq_ok, checkedAdd_eq_ok, pure, Except.pure, Except.ok.injEq] at created
  obtain ⟨state, ⟨-, -, -, absent, balance, -, -, -, rfl⟩, rfl⟩ := created
  exact ⟨not_not.mp absent, rfl⟩

theorem checkQuorum_ok {totals : QuorumStakeTotals} (checked : checkQuorum totals = .ok ()) :
    totals.PassesQuorum := by
  simp only [checkQuorum, bind_eq_ok, revertIf_eq_ok, checkedMul_eq_ok] at checked
  obtain ⟨signed, signedAt, scaled, ⟨-, rfl⟩, total, totalAt, required, product, enough⟩ := checked
  rw [elementAt] at signedAt totalAt
  refine ⟨signed, total, ?_, ?_, ?_⟩
  · split at signedAt
    · rename_i value found
      cases signedAt
      exact found
    · cases signedAt
  · split at totalAt
    · rename_i value found
      cases totalAt
      exact found
    · cases totalAt
  · rw [checkedMul96] at product
    split at product
    · cases product
      exact Nat.not_lt.mp enough
    · cases product

theorem respondToTaskV2_ok {sender senderAddress : Address} {gas : Gas} {paid : Nat}
    {checkSignatures : Bytes32 → Nat → Except Revert QuorumStakeTotals}
    {batchMerkleRoot : Bytes32}
    (responded : contract.respondToTaskV2 keccak sender gas checkSignatures batchMerkleRoot
      senderAddress = .ok (next, paid)) :
    let identifier := batchIdentifier keccak batchMerkleRoot senderAddress
    (contract.batchesState identifier).taskCreatedBlock ≠ 0 ∧
      (∃ totals, checkSignatures identifier (contract.batchesState identifier).taskCreatedBlock =
        .ok totals ∧ totals.PassesQuorum) ∧
      next.batchesState = Function.update contract.batchesState identifier
        { contract.batchesState identifier with responded := true } := by
  simp only [respondToTaskV2, bind_eq_ok, revertIf_eq_ok, checkedMul_eq_ok, pure, Except.pure,
    Except.ok.injEq, Prod.mk.injEq] at responded
  obtain ⟨-, -, -, -, -, created, -, -, -, -, totals, checked, passed, quorum, cost, -, -, -,
    rfl, -⟩ := responded
  exact ⟨created, ⟨totals, checked, checkQuorum_ok quorum⟩, rfl⟩

/-- The identifiers of the tasks that a call may create or answer. -/
theorem execute_batchesState
    (executed : contract.execute keccak call = .ok next) :
    next.batchesState = contract.batchesState ∨
      (∃ blockNumber message batchMerkleRoot respondToTaskFeeLimit,
        call = .createNewTask blockNumber message batchMerkleRoot respondToTaskFeeLimit) ∨
      ∃ sender gas checkSignatures batchMerkleRoot senderAddress,
        call = .respondToTaskV2 sender gas checkSignatures batchMerkleRoot senderAddress := by
  cases call with
  | createNewTask blockNumber message batchMerkleRoot respondToTaskFeeLimit =>
      exact .inr (.inl ⟨_, _, _, _, rfl⟩)
  | respondToTaskV2 sender gas checkSignatures batchMerkleRoot senderAddress =>
      exact .inr (.inr ⟨_, _, _, _, _, rfl⟩)
  | withdraw sender amount =>
      simp only [execute, withdraw, bind_eq_ok, revertIf_eq_ok, pure, Except.pure,
        Except.ok.injEq] at executed
      obtain ⟨-, -, -, -, -, -, rfl⟩ := executed
      exact .inl rfl
  | depositToBatcher account value =>
      simp only [execute, depositToBatcher, deposit, bind_eq_ok, revertIf_eq_ok, pure,
        Except.pure, Except.ok.injEq] at executed
      obtain ⟨-, -, -, -, balance, -, rfl⟩ := executed
      exact .inl rfl
  | receive message =>
      simp only [execute, receive, deposit, bind_eq_ok, revertIf_eq_ok, pure,
        Except.pure, Except.ok.injEq] at executed
      obtain ⟨-, -, -, -, balance, -, rfl⟩ := executed
      exact .inl rfl
  | setPaused pausedStatus =>
      cases executed
      exact .inl rfl
  | _ =>
      simp only [execute, disableVerifier, enableVerifier, setDisabledVerifiers, setAggregator,
        bind_eq_ok, revertIf_eq_ok, pure, Except.pure, Except.ok.injEq] at executed
      obtain ⟨-, -, rfl⟩ := executed
      exact .inl rfl

end Contract

/-! ## What the stored state of a task tells -/

/-- The identifier of a task that was created, under one of its names. -/
def CreatedAs (keccak : Bytes → Bytes32) (deployed : Contract) (calls : List Call)
    (identifier : Bytes32) : Prop :=
  ∃ batchMerkleRoot sender, batchIdentifier keccak batchMerkleRoot sender = identifier ∧
    TaskCreated keccak deployed calls batchMerkleRoot sender

/-- The same for a task that was answered after it had been created. -/
def AnsweredAs (keccak : Bytes → Bytes32) (deployed : Contract) (calls : List Call)
    (identifier : Bytes32) : Prop :=
  ∃ batchMerkleRoot sender before caller gas checkSignatures block totals,
    batchIdentifier keccak batchMerkleRoot sender = identifier ∧
    CreatedAs keccak deployed before identifier ∧
    Happened keccak deployed calls before
      (.respondToTaskV2 caller gas checkSignatures batchMerkleRoot sender) ∧
    checkSignatures identifier block = .ok totals ∧ totals.PassesQuorum

/-- The stored state of every task reflects the calls. -/
structure Recorded (keccak : Bytes → Bytes32) (deployed : Contract) (calls : List Call) :
    Prop where
  created : ∀ identifier,
    ((deployed.run keccak calls).batchesState identifier).taskCreatedBlock ≠ 0 →
      CreatedAs keccak deployed calls identifier
  answered : ∀ identifier,
    ((deployed.run keccak calls).batchesState identifier).responded = true →
      AnsweredAs keccak deployed calls identifier

theorem CreatedAs.append {identifier : Bytes32}
    (created : CreatedAs keccak deployed calls identifier) (later : List Call) :
    CreatedAs keccak deployed (calls ++ later) identifier := by
  obtain ⟨batchMerkleRoot, sender, same, task⟩ := created
  exact ⟨batchMerkleRoot, sender, same, task.append later⟩

theorem AnsweredAs.append {identifier : Bytes32}
    (answered : AnsweredAs keccak deployed calls identifier) (later : List Call) :
    AnsweredAs keccak deployed (calls ++ later) identifier := by
  obtain ⟨root, sender, before, caller, gas, check, block, totals, same, created, happened, rest⟩ :=
    answered
  exact ⟨root, sender, before, caller, gas, check, block, totals, same, created,
    happened.append later, rest⟩

/-- A call that leaves the tasks alone. -/
theorem Recorded.of_same (recorded : Recorded keccak deployed calls) {later : List Call}
    (same : (deployed.run keccak (calls ++ later)).batchesState =
      (deployed.run keccak calls).batchesState) :
    Recorded keccak deployed (calls ++ later) where
  created identifier stored := by
    rw [same] at stored
    exact (recorded.created identifier stored).append later
  answered identifier stored := by
    rw [same] at stored
    exact (recorded.answered identifier stored).append later

theorem Recorded.createNewTask (recorded : Recorded keccak deployed calls) {blockNumber : Nat}
    {message : Message} {batchMerkleRoot : Bytes32} {respondToTaskFeeLimit : Nat}
    (executed : (deployed.run keccak calls).execute keccak
      (.createNewTask blockNumber message batchMerkleRoot respondToTaskFeeLimit) = .ok next)
    (reached : deployed.run keccak (calls ++
      [.createNewTask blockNumber message batchMerkleRoot respondToTaskFeeLimit]) = next) :
    Recorded keccak deployed (calls ++
      [.createNewTask blockNumber message batchMerkleRoot respondToTaskFeeLimit]) := by
  obtain ⟨-, written⟩ := Contract.createNewTask_ok executed
  constructor
  · intro identifier stored
    rw [reached, written] at stored
    by_cases own : identifier = batchIdentifier keccak batchMerkleRoot message.sender
    · refine ⟨batchMerkleRoot, message.sender, own.symm, calls, blockNumber, message,
        respondToTaskFeeLimit, rfl, ⟨[], rfl⟩, next, executed⟩
    · rw [Function.update_of_ne own] at stored
      exact (recorded.created identifier stored).append _
  · intro identifier stored
    rw [reached, written] at stored
    by_cases own : identifier = batchIdentifier keccak batchMerkleRoot message.sender
    · rw [own, Function.update_self] at stored
      cases stored
    · rw [Function.update_of_ne own] at stored
      exact (recorded.answered identifier stored).append _

theorem Recorded.respondToTaskV2 (recorded : Recorded keccak deployed calls)
    {sender senderAddress : Address} {gas : Gas}
    {checkSignatures : Bytes32 → Nat → Except Revert QuorumStakeTotals}
    {batchMerkleRoot : Bytes32}
    (executed : (deployed.run keccak calls).execute keccak
      (.respondToTaskV2 sender gas checkSignatures batchMerkleRoot senderAddress) = .ok next)
    (reached : deployed.run keccak (calls ++
      [.respondToTaskV2 sender gas checkSignatures batchMerkleRoot senderAddress]) = next) :
    Recorded keccak deployed (calls ++
      [.respondToTaskV2 sender gas checkSignatures batchMerkleRoot senderAddress]) := by
  have responded := executed
  simp only [Contract.execute, bind_eq_ok, Prod.exists, pure, Except.pure,
    Except.ok.injEq] at responded
  obtain ⟨answered, paid, responded, rfl⟩ := responded
  obtain ⟨created, ⟨totals, checked, quorum⟩, written⟩ := Contract.respondToTaskV2_ok responded
  constructor
  · intro identifier stored
    rw [reached, written] at stored
    by_cases own : identifier = batchIdentifier keccak batchMerkleRoot senderAddress
    · rw [own]
      exact (recorded.created _ created).append _
    · rw [Function.update_of_ne own] at stored
      exact (recorded.created identifier stored).append _
  · intro identifier stored
    rw [reached, written] at stored
    by_cases own : identifier = batchIdentifier keccak batchMerkleRoot senderAddress
    · rw [own]
      exact ⟨batchMerkleRoot, senderAddress, calls, sender, gas, checkSignatures, _, totals, rfl,
        recorded.created _ created, ⟨⟨[], rfl⟩, _, executed⟩, checked, quorum⟩
    · rw [Function.update_of_ne own] at stored
      exact (recorded.answered identifier stored).append _

theorem recorded_run (fresh : deployed.Fresh) (calls : List Call) :
    Recorded keccak deployed calls := by
  induction calls using List.reverseRecOn with
  | nil =>
      constructor
      · intro identifier stored
        exact absurd (fresh.created identifier) stored
      · intro identifier stored
        have unanswered := fresh.responded identifier
        rw [Contract.run, List.foldl_nil, unanswered] at stored
        cases stored
  | append_singleton calls call induction =>
      have reached := Contract.run_concat keccak calls call deployed
      rw [Contract.transact] at reached
      cases executed : (deployed.run keccak calls).execute keccak call with
      | error reason =>
          rw [executed] at reached
          exact induction.of_same (by rw [reached])
      | ok next =>
          rw [executed] at reached
          rcases Contract.execute_batchesState executed with same |
            ⟨blockNumber, message, root, limit, rfl⟩ | ⟨sender, gas, check, root, address, rfl⟩
          · exact induction.of_same (by rw [reached, same])
          · exact induction.createNewTask executed reached
          · exact induction.respondToTaskV2 executed reached

end AlignedLayer.AlignedLayerServiceManager
