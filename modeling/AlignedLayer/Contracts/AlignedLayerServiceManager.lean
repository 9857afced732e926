import AlignedLayer.Library.Except
import AlignedLayer.Sdk.VerificationData

/-!
# Creating a task in the service manager

The part of `AlignedLayerServiceManager` that `createNewTask` reads and
writes, and the errors with which a call to one of the two contracts reverts.
-/

namespace AlignedLayer

/-- The errors of the two contracts; `panic` is a checked arithmetic operation
that overflows, `callFailed` a value transfer that cannot be paid, and
`libraryRevert` comes from inherited or imported code. -/
inductive Revert where
  | panic
  | callFailed
  | paused
  | onlyBatcherAllowed (caller : Address)
  | noProofSubmitters
  | noFeePerProof
  | insufficientFeeForAggregator (required available : Nat)
  | submissionInsufficientBalance (sender : Address) (balance required : Nat)
  | userHasNoFundsToUnlock (user : Address)
  | userHasNoFundsToLock (user : Address)
  | payerInsufficientBalance (balance amount : Nat)
  | fundsLocked (unlockBlockTime currentBlockTime : Nat)
  | batchAlreadySubmitted (batchIdentifier : Bytes32)
  | insufficientFunds (batcher : Address) (required available : Nat)
  | senderIsNotAggregator (sender alignedAggregator : Address)
  | batchDoesNotExist (batchIdentifier : Bytes32)
  | batchAlreadyResponded (batchIdentifier : Bytes32)
  | invalidQuorumThreshold (signedStake requiredStake : Nat)
  | invalidDepositAmount (amount : Nat)
  | notOwner
  | libraryRevert
  deriving DecidableEq

/-- An addition of two `uint256`, which reverts when it overflows. -/
def checkedAdd (left right : Nat) : Except Revert Nat :=
  if left + right ≤ u256Max then .ok (left + right) else .error .panic

def checkedMul (left right : Nat) : Except Revert Nat :=
  if left * right ≤ u256Max then .ok (left * right) else .error .panic

/-- `if (condition) revert error`. -/
def revertIf (condition : Prop) [Decidable condition] (error : Revert) : Except Revert Unit :=
  if condition then .error error else .ok ()

@[simp] theorem revertIf_eq_ok {condition : Prop} [Decidable condition] {error : Revert}
    {result : Unit} : revertIf condition error = .ok result ↔ ¬ condition := by
  rw [revertIf]
  split <;> simp_all

@[simp] theorem revertIf_eq_error {condition : Prop} [Decidable condition]
    {error other : Revert} :
    revertIf condition error = .error other ↔ condition ∧ error = other := by
  rw [revertIf]
  split <;> simp_all

theorem checkedAdd_error {left right : Nat} {error : Revert}
    (failed : checkedAdd left right = .error error) : error = .panic := by
  rw [checkedAdd] at failed
  split at failed
  · cases failed
  · cases failed
    rfl

theorem checkedMul_error {left right : Nat} {error : Revert}
    (failed : checkedMul left right = .error error) : error = .panic := by
  rw [checkedMul] at failed
  split at failed
  · cases failed
  · cases failed
    rfl

theorem checkedAdd_eq_ok {left right sum : Nat} :
    checkedAdd left right = .ok sum ↔ left + right ≤ u256Max ∧ sum = left + right := by
  rw [checkedAdd]
  split <;> simp_all [eq_comm]

theorem checkedMul_eq_ok {left right product : Nat} :
    checkedMul left right = .ok product ↔ left * right ≤ u256Max ∧ product = left * right := by
  rw [checkedMul]
  split <;> simp_all [eq_comm]

namespace AlignedLayerServiceManager

structure BatchState where
  taskCreatedBlock : Nat
  responded : Bool
  respondToTaskFeeLimit : Nat
  deriving DecidableEq

structure State where
  batchesState : Bytes32 → BatchState
  batchersBalances : Address → Nat
  paused : Bool

/-- The message, as the callee sees it. -/
structure Message where
  sender : Address
  value : Nat

/-- `keccak256(abi.encodePacked(batchMerkleRoot, senderAddress))`. -/
def batchIdentifier (keccak : Bytes → Bytes32) (batchMerkleRoot : Bytes32)
    (senderAddress : Address) : Bytes32 :=
  keccak (batchMerkleRoot.toList ++ senderAddress.toBytes.toList)

def createNewTask (keccak : Bytes → Bytes32) (blockNumber : Nat) (message : Message)
    (batchMerkleRoot : Bytes32) (respondToTaskFeeLimit : Nat) (state : State) :
    Except Revert State := do
  revertIf state.paused .paused
  let identifier := batchIdentifier keccak batchMerkleRoot message.sender
  revertIf ((state.batchesState identifier).taskCreatedBlock ≠ 0)
    (.batchAlreadySubmitted identifier)
  let balance ← checkedAdd (state.batchersBalances message.sender) message.value
  revertIf (balance < respondToTaskFeeLimit)
    (.insufficientFunds message.sender respondToTaskFeeLimit balance)
  let batchState : BatchState :=
    { taskCreatedBlock := blockNumber % 2 ^ 32
      responded := false
      respondToTaskFeeLimit := respondToTaskFeeLimit }
  return { state with
    batchesState := Function.update state.batchesState identifier batchState
    batchersBalances := Function.update state.batchersBalances message.sender balance }

/-- The service manager knows nothing of the balances of users. -/
theorem createNewTask_ne_insufficientBalance {keccak : Bytes → Bytes32} {blockNumber : Nat}
    {message : Message} {batchMerkleRoot : Bytes32} {respondToTaskFeeLimit : Nat} {state : State}
    {user : Address} {balance required : Nat} :
    createNewTask keccak blockNumber message batchMerkleRoot respondToTaskFeeLimit state ≠
      .error (.submissionInsufficientBalance user balance required) := by
  intro failed
  simp only [createNewTask, bind_eq_error, revertIf_eq_error, reduceCtorEq, and_false,
    false_or, pure, Except.pure, exists_false, or_false] at failed
  obtain ⟨-, -, -, -, overflow⟩ := failed
  cases checkedAdd_error overflow

end AlignedLayerServiceManager

end AlignedLayer
