import AlignedLayer.Contracts.BatcherPaymentService
import AlignedLayer.Contracts.TaskHistory

/-!
# The two contracts together

The payment service and the service manager as one ledger.  Ether moves
between them and to other accounts, and a transfer to one of the two runs its
`receive`.
-/

namespace AlignedLayer

/-- The payment service, its owner, and the service manager it pays to. -/
structure Ledger where
  payment : BatcherPaymentService.State
  owner : Address
  manager : AlignedLayerServiceManager.Contract

namespace Ledger

/-- `transfer`, after the sender was debited.  A recipient may refuse the
ether, as one does that runs out of gas; other accounts do nothing else. -/
def deliver (accepts : Address → Bool) (sender recipient : Address) (amount : Nat)
    (ledger : Ledger) : Except Revert Ledger := do
  revertIf (!accepts recipient) .callFailed
  if recipient = ledger.payment.self then
    let payment ← BatcherPaymentService.receive sender amount ledger.payment
    return { ledger with payment := payment }
  else if recipient = ledger.manager.self then
    let manager ← ledger.manager.receive ⟨sender, amount⟩
    return { ledger with manager := manager }
  else
    return ledger

inductive Call where
  /-- Ether sent to the payment service. -/
  | receive (sender : Address) (value : Nat)
  | createNewTask (blockNumber : Nat) (sender : Address)
      (call : BatcherPaymentService.CreateNewTask)
  | unlock (sender : Address) (timestamp : Nat)
  | lock (sender : Address)
  | withdraw (sender : Address) (amount timestamp : Nat)
  | withdrawFromServiceManager (sender : Address) (value amount : Nat)
      (withdrawAddress : Address)
  /-- `pause` and `unpause` of the payment service. -/
  | setPaused (sender : Address) (paused : Bool)
  /-- A call to the service manager itself. -/
  | manager (call : AlignedLayerServiceManager.Call)

variable (keccak : Bytes → Bytes32) (accepts : Address → Bool)

def createNewTask (blockNumber : Nat) (sender : Address)
    (call : BatcherPaymentService.CreateNewTask) (ledger : Ledger) : Except Revert Ledger := do
  let (payment, managed) ← BatcherPaymentService.createNewTask keccak blockNumber sender call
    ledger.payment ledger.manager.state
  let manager :=
    { ledger.manager.withState managed with
      ethBalance := ledger.manager.ethBalance + call.feeForAggregator }
  deliver accepts payment.self payment.batcherWallet
    (call.feePerProof * call.proofSubmitters.length - call.feeForAggregator)
    { ledger with payment := payment, manager := manager }

def withdraw (sender : Address) (amount timestamp : Nat) (ledger : Ledger) :
    Except Revert Ledger := do
  let payment ← BatcherPaymentService.withdraw sender amount timestamp ledger.payment
  deliver accepts payment.self sender amount { ledger with payment := payment }

/-- `withdraw` of the service manager. -/
def withdrawFromManager (sender : Address) (amount : Nat) (ledger : Ledger) :
    Except Revert Ledger := do
  let manager ← ledger.manager.withdraw sender amount
  deliver accepts manager.self sender amount { ledger with manager := manager }

def withdrawFromServiceManager (sender : Address) (value amount : Nat)
    (withdrawAddress : Address) (ledger : Ledger) : Except Revert Ledger := do
  revertIf (sender ≠ ledger.owner) .notOwner
  let funded :=
    { ledger with
      payment := { ledger.payment with ethBalance := ledger.payment.ethBalance + value } }
  let withdrawn ← funded.withdrawFromManager accepts funded.payment.self amount
  revertIf (withdrawn.payment.ethBalance < amount) .callFailed
  let payment :=
    { withdrawn.payment with ethBalance := withdrawn.payment.ethBalance - amount }
  deliver accepts payment.self withdrawAddress amount { withdrawn with payment := payment }

def respondToTaskV2 (sender : Address) (gas : AlignedLayerServiceManager.Gas)
    (checkSignatures : Bytes32 → Nat →
      Except Revert AlignedLayerServiceManager.QuorumStakeTotals)
    (batchMerkleRoot : Bytes32) (senderAddress : Address) (ledger : Ledger) :
    Except Revert Ledger := do
  let (manager, transferAmount) ← ledger.manager.respondToTaskV2 keccak sender gas
    checkSignatures batchMerkleRoot senderAddress
  deliver accepts manager.self manager.alignedAggregator transferAmount
    { ledger with manager := manager }

def execute (call : Call) (ledger : Ledger) : Except Revert Ledger :=
  match call with
  | .receive sender value => do
      let payment ← BatcherPaymentService.receive sender value ledger.payment
      return { ledger with payment := payment }
  | .createNewTask blockNumber sender call =>
      ledger.createNewTask keccak accepts blockNumber sender call
  | .unlock sender timestamp => do
      let payment ← BatcherPaymentService.unlock sender timestamp ledger.payment
      return { ledger with payment := payment }
  | .lock sender => do
      let payment ← BatcherPaymentService.lock sender ledger.payment
      return { ledger with payment := payment }
  | .withdraw sender amount timestamp => ledger.withdraw accepts sender amount timestamp
  | .withdrawFromServiceManager sender value amount withdrawAddress =>
      ledger.withdrawFromServiceManager accepts sender value amount withdrawAddress
  | .setPaused sender paused => do
      revertIf (sender ≠ ledger.owner) .notOwner
      return { ledger with payment := { ledger.payment with paused := paused } }
  | .manager (.withdraw sender amount) => ledger.withdrawFromManager accepts sender amount
  | .manager (.respondToTaskV2 sender gas checkSignatures batchMerkleRoot senderAddress) =>
      ledger.respondToTaskV2 keccak accepts sender gas checkSignatures batchMerkleRoot
        senderAddress
  | .manager call => do
      let manager ← ledger.manager.execute keccak call
      return { ledger with manager := manager }

/-- A call, and which other accounts take the ether they are sent. -/
structure Transaction where
  call : Call
  accepts : Address → Bool

/-- A transaction that reverts changes nothing. -/
def transact (ledger : Ledger) (transaction : Transaction) : Ledger :=
  match ledger.execute keccak transaction.accepts transaction.call with
  | .ok next => next
  | .error _ => ledger

def run (transactions : List Transaction) (ledger : Ledger) : Ledger :=
  transactions.foldl (transact keccak) ledger

end Ledger

end AlignedLayer
