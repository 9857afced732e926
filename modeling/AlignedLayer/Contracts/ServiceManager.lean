import AlignedLayer.Contracts.AlignedLayerServiceManager
import AlignedLayer.Sdk.BatchInclusion

/-!
# The service manager contract

All of `AlignedLayerServiceManager` that callers other than its deployer use:
tasks and their answers, the balances of the batchers, the disabled verifiers,
and the check that a proof is part of an answered batch.
-/

namespace AlignedLayer.AlignedLayerServiceManager

structure Contract where
  /-- The contract's own address and the ether it holds. -/
  self : Address
  ethBalance : Nat
  owner : Address
  alignedAggregator : Address
  disabledVerifiers : Nat
  /-- The bitmap of `Pausable`. -/
  pausedStatus : Nat
  batchesState : Bytes32 → BatchState
  batchersBalances : Address → Nat

/-- The totals of `checkSignatures`, one number for every quorum. -/
structure QuorumStakeTotals where
  signedStakeForQuorum : List Nat
  totalStakeForQuorum : List Nat

/-- What a call costs its sender. -/
structure Gas where
  used : Nat
  price : Nat

def thresholdDenominator : Nat := 100
def quorumThresholdPercentage : Nat := 67

/-- An element of a memory array; the access reverts when there is none. -/
def elementAt (values : List Nat) (index : Nat) : Except Revert Nat :=
  match values[index]? with
  | some value => .ok value
  | none => .error .panic

/-- A product of a `uint96` and a `uint8`, which is a `uint96`. -/
def checkedMul96 (left right : Nat) : Except Revert Nat :=
  if left * right < 2 ^ 96 then .ok (left * right) else .error .panic

namespace Contract

def isPaused (contract : Contract) (index : Nat) : Bool :=
  contract.pausedStatus.testBit index

/-- The part of the contract that `createNewTask` reads and writes. -/
def state (contract : Contract) : State :=
  { batchesState := contract.batchesState
    batchersBalances := contract.batchersBalances
    paused := contract.isPaused 0 }

def withState (contract : Contract) (state : State) : Contract :=
  { contract with
    batchesState := state.batchesState
    batchersBalances := state.batchersBalances }

def createNewTask (keccak : Bytes → Bytes32) (blockNumber : Nat) (message : Message)
    (batchMerkleRoot : Bytes32) (respondToTaskFeeLimit : Nat) (contract : Contract) :
    Except Revert Contract := do
  let state ← AlignedLayerServiceManager.createNewTask keccak blockNumber message
    batchMerkleRoot respondToTaskFeeLimit contract.state
  return { contract.withState state with ethBalance := contract.ethBalance + message.value }

/-- The test of the threshold, in the arithmetic of the contract. -/
def checkQuorum (totals : QuorumStakeTotals) : Except Revert Unit := do
  let signedStake ← elementAt totals.signedStakeForQuorum 0
  let signed ← checkedMul signedStake thresholdDenominator
  let totalStake ← elementAt totals.totalStakeForQuorum 0
  let required ← checkedMul96 totalStake quorumThresholdPercentage
  revertIf (signed < required) (.invalidQuorumThreshold signed required)

/-- Answers a task and returns what the aggregator is paid for it.
`checkSignatures` is what the inherited checker answers for the signatures of
this call, given the signed hash and the block of the task. -/
def respondToTaskV2 (keccak : Bytes → Bytes32) (sender : Address) (gas : Gas)
    (checkSignatures : Bytes32 → Nat → Except Revert QuorumStakeTotals)
    (batchMerkleRoot : Bytes32) (senderAddress : Address) (contract : Contract) :
    Except Revert (Contract × Nat) := do
  revertIf (sender ≠ contract.alignedAggregator)
    (.senderIsNotAggregator sender contract.alignedAggregator)
  revertIf (contract.isPaused 1) .paused
  let identifier := batchIdentifier keccak batchMerkleRoot senderAddress
  let currentBatch := contract.batchesState identifier
  revertIf (currentBatch.taskCreatedBlock = 0) (.batchDoesNotExist identifier)
  revertIf currentBatch.responded (.batchAlreadyResponded identifier)
  let available := contract.batchersBalances senderAddress
  revertIf (available < currentBatch.respondToTaskFeeLimit)
    (.insufficientFunds senderAddress currentBatch.respondToTaskFeeLimit available)
  let totals ← checkSignatures identifier currentBatch.taskCreatedBlock
  checkQuorum totals
  let txCost ← checkedMul (gas.used + 70000) gas.price
  let transferAmount := min txCost currentBatch.respondToTaskFeeLimit
  revertIf (contract.ethBalance < transferAmount) .callFailed
  return ({ contract with
    ethBalance := contract.ethBalance - transferAmount
    batchesState := Function.update contract.batchesState identifier
      { currentBatch with responded := true }
    batchersBalances := Function.update contract.batchersBalances senderAddress
      (available - transferAmount) }, transferAmount)

def isVerifierDisabled (contract : Contract) (verifierIdx : UInt8) : Bool :=
  contract.disabledVerifiers.testBit verifierIdx.toNat

def disableVerifier (sender : Address) (verifierIdx : UInt8) (contract : Contract) :
    Except Revert Contract := do
  revertIf (sender ≠ contract.owner) .notOwner
  return { contract with
    disabledVerifiers := contract.disabledVerifiers ||| 1 <<< verifierIdx.toNat }

def enableVerifier (sender : Address) (verifierIdx : UInt8) (contract : Contract) :
    Except Revert Contract := do
  revertIf (sender ≠ contract.owner) .notOwner
  return { contract with
    disabledVerifiers := contract.disabledVerifiers &&& (u256Max ^^^ 1 <<< verifierIdx.toNat) }

def setDisabledVerifiers (sender : Address) (bitmap : Nat) (contract : Contract) :
    Except Revert Contract := do
  revertIf (sender ≠ contract.owner) .notOwner
  return { contract with disabledVerifiers := bitmap }

def setAggregator (sender alignedAggregator : Address) (contract : Contract) :
    Except Revert Contract := do
  revertIf (sender ≠ contract.owner) .notOwner
  return { contract with alignedAggregator := alignedAggregator }

/-- `Merkle.verifyInclusionKeccak` is imported, and a parameter. -/
def verifyBatchInclusion (keccak : Bytes → Bytes32)
    (verifyInclusionKeccak : Bytes → Bytes32 → Bytes32 → Nat → Except Revert Bool)
    (commitment : VerificationDataCommitment) (batchMerkleRoot : Bytes32) (merkleProof : Bytes)
    (verificationDataBatchIndex : Nat) (senderAddress : Address) (contract : Contract) :
    Except Revert Bool := do
  revertIf (contract.isPaused 2) .paused
  let identifier :=
    if senderAddress = 0 then batchMerkleRoot
    else batchIdentifier keccak batchMerkleRoot senderAddress
  if (contract.batchesState identifier).taskCreatedBlock = 0 then
    return false
  if !(contract.batchesState identifier).responded then
    return false
  let hashedLeaf := keccak (VerificationCommitmentBatch.leafBytes commitment)
  verifyInclusionKeccak merkleProof batchMerkleRoot hashedLeaf verificationDataBatchIndex

def withdraw (sender : Address) (amount : Nat) (contract : Contract) :
    Except Revert Contract := do
  revertIf (contract.isPaused 3) .paused
  let available := contract.batchersBalances sender
  revertIf (available < amount) (.insufficientFunds sender amount available)
  revertIf (contract.ethBalance < amount) .callFailed
  return { contract with
    ethBalance := contract.ethBalance - amount
    batchersBalances := Function.update contract.batchersBalances sender (available - amount) }

/-- `_depositToBatcher`, together with the value that comes with the call. -/
def deposit (account : Address) (amount : Nat) (contract : Contract) :
    Except Revert Contract := do
  revertIf (amount = 0) (.invalidDepositAmount amount)
  let balance ← checkedAdd (contract.batchersBalances account) amount
  return { contract with
    ethBalance := contract.ethBalance + amount
    batchersBalances := Function.update contract.batchersBalances account balance }

def depositToBatcher (account : Address) (value : Nat) (contract : Contract) :
    Except Revert Contract := do
  revertIf (contract.isPaused 4) .paused
  contract.deposit account value

def receive (message : Message) (contract : Contract) : Except Revert Contract := do
  revertIf (contract.isPaused 5) .paused
  contract.deposit message.sender message.value

end Contract

end AlignedLayer.AlignedLayerServiceManager
