import AlignedLayer.Batcher.Submission
import AlignedLayer.Contracts.Ledger
import Mathlib.Tactic.Ring

/-!
# The fee parameters pass the contract's checks

The fee of a proof is rounded down once for the batch, the fee for the
aggregator once for its percentage.  The base cost of a submission and the
cost per proof outweigh what is lost, for every size of the batch.
-/

namespace AlignedLayer

/-- The result of an operation on an unsigned type with so many bits. -/
def checkedBits (bits value : Nat) : Option Nat :=
  if value < 2 ^ bits then some value else none

/-- The computation of `submit_batch` with its types: `u128` for gas, `U256`
for fees.  None if an operation overflows. -/
def Config.feeParamsChecked (config : Config) (numProofsInBatch gasPrice : Nat) :
    Option CreateNewTaskFeeParams := do
  let scaledGas ← checkedBits 128
    (config.aggregatorFeePercentageMultiplier * config.aggregatorGasCost)
  let constantGasCost ← checkedBits 128
    (scaledGas / percentageDivider + batcherSubmissionBaseGasCost)
  let additional ← checkedBits 128 (additionalSubmissionGasCostPerProof * numProofsInBatch)
  let gas ← checkedBits 128 (constantGasCost + additional)
  let feePerProof ← checkedBits 256 (gas / numProofsInBatch * gasPrice)
  let aggregatorFee ← checkedBits 256 (config.aggregatorGasCost * gasPrice)
  let scaledFee ← checkedBits 256 (aggregatorFee * config.aggregatorFeePercentageMultiplier)
  let feeForAggregator := scaledFee / percentageDivider
  let scaledLimit ← checkedBits 256
    (feeForAggregator * respondToTaskFeeLimitPercentageMultiplier)
  let respondToTaskFeeLimit := scaledLimit / percentageDivider
  return { feeForAggregator, feePerProof, gasPrice, respondToTaskFeeLimit }

theorem checkedBits_eq_some {bits value result : Nat} :
    checkedBits bits value = some result ↔ value < 2 ^ bits ∧ result = value := by
  rw [checkedBits]
  split <;> simp_all [eq_comm]

/-- Without an overflow the types make no difference. -/
theorem feeParamsChecked_eq {config : Config} {count gasPrice : Nat}
    {params : CreateNewTaskFeeParams}
    (computed : config.feeParamsChecked count gasPrice = some params) :
    params = config.feeParams count gasPrice := by
  simp only [Config.feeParamsChecked, Option.bind_eq_bind, Option.bind_eq_some_iff,
    checkedBits_eq_some, Option.pure_def, Option.some.injEq] at computed
  obtain ⟨_, ⟨-, rfl⟩, _, ⟨-, rfl⟩, _, ⟨-, rfl⟩, _, ⟨-, rfl⟩, _, ⟨-, rfl⟩, _, ⟨-, rfl⟩, _,
    ⟨-, rfl⟩, _, ⟨-, rfl⟩, rfl⟩ := computed
  rfl

/-! ## The two inequalities -/

/-- What the batch is charged covers the constant cost, up to the rounding,
which the cost per proof outweighs. -/
theorem constantGasCost_lt_mul {constantGasCost count : Nat} (positive : 1 ≤ count) :
    constantGasCost <
      (constantGasCost + additionalSubmissionGasCostPerProof * count) / count * count := by
  have rounded := Nat.lt_div_mul_add positive
    (a := constantGasCost + additionalSubmissionGasCostPerProof * count)
  have outweighs : count ≤ additionalSubmissionGasCostPerProof * count :=
    Nat.le_mul_of_pos_left count (by decide)
  omega

/-- The aggregator's fee is below the constant cost times the gas price. -/
theorem feeForAggregator_le (config : Config) (count gasPrice : Nat) :
    (config.feeParams count gasPrice).feeForAggregator ≤ config.constantGasCost * gasPrice := by
  have rounded := Nat.lt_div_mul_add (show 0 < percentageDivider by decide)
    (a := config.aggregatorFeePercentageMultiplier * config.aggregatorGasCost)
  have below : config.aggregatorFeePercentageMultiplier * config.aggregatorGasCost ≤
      config.constantGasCost * percentageDivider := by
    rw [Config.constantGasCost, Nat.add_mul]
    have base : percentageDivider ≤ batcherSubmissionBaseGasCost * percentageDivider := by decide
    omega
  calc
    config.aggregatorGasCost * gasPrice * config.aggregatorFeePercentageMultiplier
        / percentageDivider =
      config.aggregatorFeePercentageMultiplier * config.aggregatorGasCost * gasPrice
        / percentageDivider := by
      congr 1
      ring
    _ ≤ config.constantGasCost * percentageDivider * gasPrice / percentageDivider :=
      Nat.div_le_div_right (Nat.mul_le_mul_right gasPrice below)
    _ = config.constantGasCost * gasPrice * percentageDivider / percentageDivider := by
      congr 1
      ring
    _ = config.constantGasCost * gasPrice :=
      Nat.mul_div_cancel _ (by decide)

theorem feePerProof_pos (config : Config) {count gasPrice : Nat} (positiveCount : 1 ≤ count)
    (positivePrice : 1 ≤ gasPrice) : 0 < (config.feeParams count gasPrice).feePerProof := by
  apply Nat.mul_pos ?_ positivePrice
  apply Nat.div_pos ?_ positiveCount
  have outweighs : count ≤ additionalSubmissionGasCostPerProof * count :=
    Nat.le_mul_of_pos_left count (by decide)
  exact outweighs.trans (Nat.le_add_left _ _)

theorem feeForAggregator_lt (config : Config) {count gasPrice : Nat} (positiveCount : 1 ≤ count)
    (positivePrice : 1 ≤ gasPrice) :
    (config.feeParams count gasPrice).feeForAggregator <
      (config.feeParams count gasPrice).feePerProof * count := by
  calc
    (config.feeParams count gasPrice).feeForAggregator ≤ config.constantGasCost * gasPrice :=
      feeForAggregator_le config count gasPrice
    _ < (config.constantGasCost + additionalSubmissionGasCostPerProof * count) / count * count
        * gasPrice :=
      Nat.mul_lt_mul_of_pos_right (constantGasCost_lt_mul positiveCount) positivePrice
    _ = (config.feeParams count gasPrice).feePerProof * count := by
      simp only [Config.feeParams]
      ring

/-! ## The checks of the contract -/

/-- The errors for fees that are too low. -/
def Revert.RejectsFees : Revert → Prop
  | .noFeePerProof => True
  | .insufficientFeeForAggregator _ _ => True
  | _ => False

theorem decreaseUserBalances_not_rejectsFees {feePerProof index : Nat}
    {proofSubmitters : List Address} {userData : Address → BatcherPaymentService.UserInfo}
    {reason : Revert}
    (failed : BatcherPaymentService.decreaseUserBalances feePerProof index proofSubmitters
      userData = .error reason) : ¬ reason.RejectsFees := by
  induction proofSubmitters generalizing index userData with
  | nil => cases failed
  | cons proofSubmitter rest induction =>
      simp only [BatcherPaymentService.decreaseUserBalances, bind_eq_error,
        revertIf_eq_error] at failed
      rcases failed with ⟨-, rfl⟩ | ⟨-, -, overflow | ⟨_, -, ⟨-, rfl⟩ | ⟨-, -, later⟩⟩⟩
      · exact id
      · rw [checkedAdd_error overflow]
        exact id
      · exact id
      · exact induction later

theorem serviceManager_not_rejectsFees {keccak : Bytes → Bytes32} {blockNumber limit : Nat}
    {message : AlignedLayerServiceManager.Message} {root : Bytes32}
    {state : AlignedLayerServiceManager.State} {reason : Revert}
    (failed : AlignedLayerServiceManager.createNewTask keccak blockNumber message root limit
      state = .error reason) : ¬ reason.RejectsFees := by
  simp only [AlignedLayerServiceManager.createNewTask, bind_eq_error, revertIf_eq_error, pure,
    Except.pure, reduceCtorEq, and_false, exists_false, or_false] at failed
  rcases failed with ⟨-, rfl⟩ | ⟨-, -, ⟨-, rfl⟩ | ⟨-, -, overflow | ⟨_, -, -, rfl⟩⟩⟩
  · exact id
  · exact id
  · rw [checkedAdd_error overflow]
    exact id
  · exact id

theorem receive_not_rejectsFees {sender : Address} {value : Nat}
    {state : BatcherPaymentService.State} {reason : Revert}
    (failed : BatcherPaymentService.receive sender value state = .error reason) :
    ¬ reason.RejectsFees := by
  rw [BatcherPaymentService.receive] at failed
  split at failed
  · cases failed
  · simp only [bind_eq_error, pure, Except.pure, reduceCtorEq, and_false, exists_false,
      or_false] at failed
    rw [checkedAdd_error failed]
    exact id

theorem managerReceive_not_rejectsFees {message : AlignedLayerServiceManager.Message}
    {contract : AlignedLayerServiceManager.Contract} {reason : Revert}
    (failed : contract.receive message = .error reason) : ¬ reason.RejectsFees := by
  simp only [AlignedLayerServiceManager.Contract.receive,
    AlignedLayerServiceManager.Contract.deposit, bind_eq_error, revertIf_eq_error, pure,
    Except.pure, reduceCtorEq, and_false, exists_false, or_false] at failed
  rcases failed with ⟨-, rfl⟩ | ⟨-, -, ⟨-, rfl⟩ | ⟨-, -, overflow⟩⟩
  · exact id
  · exact id
  · rw [checkedAdd_error overflow]
    exact id

theorem deliver_not_rejectsFees {accepts : Address → Bool} {sender recipient : Address}
    {amount : Nat} {ledger : Ledger} {reason : Revert}
    (failed : ledger.deliver accepts sender recipient amount = .error reason) :
    ¬ reason.RejectsFees := by
  simp only [Ledger.deliver, bind_eq_error, revertIf_eq_error] at failed
  rcases failed with ⟨-, rfl⟩ | ⟨-, -, failed⟩
  · exact id
  · split at failed
    · simp only [bind_eq_error, pure, Except.pure, reduceCtorEq, and_false, exists_false,
        or_false] at failed
      exact receive_not_rejectsFees failed
    · split at failed
      · simp only [bind_eq_error, pure, Except.pure, reduceCtorEq, and_false, exists_false,
          or_false] at failed
        exact managerReceive_not_rejectsFees failed
      · cases failed

/-- Fees that satisfy the two inequalities are not what a call reverts for. -/
theorem createNewTask_not_rejectsFees {keccak : Bytes → Bytes32} {accepts : Address → Bool}
    {blockNumber : Nat} {sender : Address} {call : BatcherPaymentService.CreateNewTask}
    {ledger : Ledger} {reason : Revert} (positive : 0 < call.feePerProof)
    (covered : call.feeForAggregator < call.feePerProof * call.proofSubmitters.length)
    (failed : ledger.createNewTask keccak accepts blockNumber sender call = .error reason) :
    ¬ reason.RejectsFees := by
  simp only [Ledger.createNewTask, bind_eq_error, Prod.exists] at failed
  rcases failed with failed | ⟨_, _, -, delivered⟩
  · simp only [BatcherPaymentService.createNewTask, bind_eq_error, revertIf_eq_error,
      checkedMul_eq_ok, pure, Except.pure, reduceCtorEq, and_false, exists_false,
      or_false] at failed
    rcases failed with ⟨-, rfl⟩ | ⟨-, -, ⟨-, rfl⟩ | ⟨-, -, ⟨-, rfl⟩ | ⟨-, -, ⟨zero, -⟩ |
      ⟨-, -, overflow | ⟨_, ⟨-, rfl⟩, ⟨short, -⟩ | ⟨-, -, stopped | ⟨_, -, ⟨-, rfl⟩ |
        ⟨-, -, called | ⟨_, -, -, rfl⟩⟩⟩⟩⟩⟩⟩⟩⟩
    · exact id
    · exact id
    · exact id
    · exact absurd zero (Nat.ne_of_gt positive)
    · rw [checkedMul_error overflow]
      exact id
    · exact absurd short (Nat.not_le.mpr covered)
    · exact decreaseUserBalances_not_rejectsFees stopped
    · exact id
    · exact serviceManager_not_rejectsFees called
    · exact id
  · exact deliver_not_rejectsFees delivered

end AlignedLayer
