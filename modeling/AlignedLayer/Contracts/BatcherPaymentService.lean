import AlignedLayer.Contracts.AlignedLayerServiceManager
import Mathlib.Data.List.Count

/-!
# The payment contract

`BatcherPaymentService` keeps a prepaid balance for every user and charges
`feePerProof` once for every listed submitter of a batch.
-/

namespace AlignedLayer

namespace BatcherPaymentService

structure UserInfo where
  balance : Nat
  unlockBlockTime : Nat
  nonce : Nat
  deriving DecidableEq

structure State where
  /-- The contract's own address and the ether it holds. -/
  self : Address
  ethBalance : Nat
  alignedLayerServiceManager : Address
  batcherWallet : Address
  paused : Bool
  userData : Address → UserInfo

def unlockBlockTime : Nat := 3600

def userBalances (state : State) (account : Address) : Nat :=
  (state.userData account).balance

def userNonces (state : State) (account : Address) : Nat :=
  (state.userData account).nonce

def userUnlockBlock (state : State) (account : Address) : Nat :=
  (state.userData account).unlockBlockTime

/-- Deposits are credited unless they come from the service manager. -/
def receive (sender : Address) (value : Nat) (state : State) : Except Revert State := do
  let funded := { state with ethBalance := state.ethBalance + value }
  if sender = state.alignedLayerServiceManager then
    return funded
  let user := state.userData sender
  let balance ← checkedAdd user.balance value
  return { funded with
    userData := Function.update state.userData sender
      { user with balance := balance, unlockBlockTime := 0 } }

/-- The loop of `createNewTask`.  Its index is a `uint32`. -/
def decreaseUserBalances (feePerProof : Nat) :
    Nat → List Address → (Address → UserInfo) → Except Revert (Address → UserInfo)
  | _, [], userData => .ok userData
  | index, proofSubmitter :: rest, userData => do
      let user := userData proofSubmitter
      revertIf (user.balance < feePerProof)
        (.submissionInsufficientBalance proofSubmitter user.balance feePerProof)
      let nonce ← checkedAdd user.nonce 1
      revertIf (index + 1 = 2 ^ 32) .panic
      decreaseUserBalances feePerProof (index + 1) rest
        (Function.update userData proofSubmitter
          { user with balance := user.balance - feePerProof, nonce := nonce })

/-- The arguments of a `createNewTask` call. -/
structure CreateNewTask where
  batchMerkleRoot : Bytes32
  proofSubmitters : List Address
  feeForAggregator : Nat
  feePerProof : Nat
  respondToTaskFeeLimit : Nat
  deriving DecidableEq

def createNewTask (keccak : Bytes → Bytes32) (blockNumber : Nat) (sender : Address)
    (call : CreateNewTask) (state : State) (manager : AlignedLayerServiceManager.State) :
    Except Revert (State × AlignedLayerServiceManager.State) := do
  revertIf (sender ≠ state.batcherWallet) (.onlyBatcherAllowed sender)
  revertIf state.paused .paused
  revertIf (call.proofSubmitters.length = 0) .noProofSubmitters
  revertIf (call.feePerProof = 0) .noFeePerProof
  let total ← checkedMul call.feePerProof call.proofSubmitters.length
  revertIf (total ≤ call.feeForAggregator)
    (.insufficientFeeForAggregator call.feeForAggregator total)
  let userData ← decreaseUserBalances call.feePerProof 0 call.proofSubmitters state.userData
  revertIf (state.ethBalance < call.feeForAggregator) .callFailed
  let managed ← AlignedLayerServiceManager.createNewTask keccak blockNumber
    ⟨state.self, call.feeForAggregator⟩ call.batchMerkleRoot call.respondToTaskFeeLimit manager
  -- the rest goes to the batcher's wallet
  revertIf (state.ethBalance < total) .callFailed
  return ({ state with ethBalance := state.ethBalance - total, userData := userData }, managed)

def unlock (sender : Address) (timestamp : Nat) (state : State) : Except Revert State := do
  revertIf state.paused .paused
  let user := state.userData sender
  revertIf (user.balance = 0) (.userHasNoFundsToUnlock sender)
  let unlockTime ← checkedAdd timestamp unlockBlockTime
  return { state with
    userData := Function.update state.userData sender
      { user with unlockBlockTime := unlockTime } }

def lock (sender : Address) (state : State) : Except Revert State := do
  revertIf state.paused .paused
  let user := state.userData sender
  revertIf (user.balance = 0) (.userHasNoFundsToLock sender)
  return { state with
    userData := Function.update state.userData sender { user with unlockBlockTime := 0 } }

def withdraw (sender : Address) (amount timestamp : Nat) (state : State) :
    Except Revert State := do
  revertIf state.paused .paused
  let user := state.userData sender
  revertIf (user.balance < amount) (.payerInsufficientBalance user.balance amount)
  revertIf (user.unlockBlockTime = 0 ∨ user.unlockBlockTime > timestamp)
    (.fundsLocked user.unlockBlockTime timestamp)
  revertIf (state.ethBalance < amount) .callFailed
  return { state with
    ethBalance := state.ethBalance - amount
    userData := Function.update state.userData sender
      { user with balance := user.balance - amount, unlockBlockTime := 0 } }

end BatcherPaymentService

end AlignedLayer
