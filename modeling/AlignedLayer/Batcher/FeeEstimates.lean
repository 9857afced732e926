import AlignedLayer.Batcher.System

/-!
# The fee estimate of the SDK and the fee of a batch

The SDK multiplies the gas of one proof by the gas price and then by the price
modifier; the batcher modifies the gas price first.  Rounding the modified
price down can only make the fee of the batch smaller, and a larger batch
needs less gas for each proof.  No product or sum is assumed to overflow.
-/

namespace AlignedLayer

/-- The gas of one proof, as both sides compute it from the number of proofs. -/
def gasPerProof (constantGasCost numProofs : Nat) : Nat :=
  (constantGasCost + additionalSubmissionGasCostPerProof * numProofs) / numProofs

/-- The gas price `handle_new_block` works with. -/
def modifiedGasPrice (gasPrice : Nat) : Nat :=
  gasPrice * gasPricePercentageMultiplier / percentageDivider

theorem gasPerProof_antitone (constantGasCost : Nat) {fewer more : Nat} (positive : 1 ≤ fewer)
    (order : fewer ≤ more) :
    gasPerProof constantGasCost more ≤ gasPerProof constantGasCost fewer := by
  have share : ∀ numProofs, 1 ≤ numProofs → gasPerProof constantGasCost numProofs =
      constantGasCost / numProofs + additionalSubmissionGasCostPerProof :=
    fun numProofs some => Nat.add_mul_div_right _ _ some
  rw [share fewer positive, share more (Nat.le_trans positive order)]
  apply Nat.add_le_add_right
  exact Nat.div_le_div_left order positive

/-- An estimate for a smaller batch is at least the one for a larger batch. -/
theorem calculateFeePerProofWithGasPrice_antitone (gasPrice : Nat) {fewer more : Nat}
    (positive : 1 ≤ fewer) (order : fewer ≤ more) :
    calculateFeePerProofWithGasPrice more gasPrice ≤
      calculateFeePerProofWithGasPrice fewer gasPrice := by
  have gas := gasPerProof_antitone defaultConstantGasCost positive order
  apply Nat.div_le_div_right
  apply Nat.mul_le_mul_right
  exact Nat.mul_le_mul_right gasPrice gas

/-- Rounding the modified gas price before the multiplication loses at least as
much as rounding the product. -/
theorem calculateFeePerProof_modified_le (numProofs gasPrice : Nat) :
    calculateFeePerProof numProofs (modifiedGasPrice gasPrice) defaultConstantGasCost ≤
      calculateFeePerProofWithGasPrice numProofs gasPrice := by
  calc
    gasPerProof defaultConstantGasCost numProofs *
          (gasPrice * gasPricePercentageMultiplier / percentageDivider) ≤
        gasPerProof defaultConstantGasCost numProofs * (gasPrice * gasPricePercentageMultiplier)
          / percentageDivider := Nat.mul_div_le_mul_div_assoc _ _ _
    _ = gasPerProof defaultConstantGasCost numProofs * gasPrice * gasPricePercentageMultiplier
          / percentageDivider := by rw [Nat.mul_assoc]

/-- The estimate for a batch of `numProofs` covers the fee of every batch of at
least so many proofs that is built at the gas price of the estimate: the
extraction never drops a proof for its fee, and its message passes the check
against the minimum, if the minimum is computed for as many proofs or more. -/
theorem estimate_suffices {numProofs batchLen : Nat} (positive : 1 ≤ numProofs)
    (order : numProofs ≤ batchLen) (gasPrice : Nat) :
    calculateFeePerProof batchLen (modifiedGasPrice gasPrice) defaultConstantGasCost ≤
      calculateFeePerProofWithGasPrice numProofs gasPrice ∧
    (∀ limits batchSize entry,
      limits.gasPrice = modifiedGasPrice gasPrice →
      limits.constantGasCost = defaultConstantGasCost →
      entry.maxFee = calculateFeePerProofWithGasPrice numProofs gasPrice →
      shouldRemove limits batchLen batchSize entry =
        (decide (batchSize > limits.maxBatchByteSize) ||
          decide (batchLen > limits.maxBatchProofQty))) ∧
    ∀ environment config system next task message sink addr data,
      numProofs ≤ config.amountOfProofsForMinMaxFee →
      System.newBlock config gasPrice system = some next →
      next.handlers task = none →
      validateMessage environment config message = .ok (addr, data) →
      data.maxFee = calculateFeePerProofWithGasPrice numProofs gasPrice →
      next.receive environment config task message sink =
        some (next.goto task ⟨addr, data, message.signature, sink⟩ .checkLocked) := by
  have covered : calculateFeePerProof batchLen (modifiedGasPrice gasPrice)
      defaultConstantGasCost ≤ calculateFeePerProofWithGasPrice numProofs gasPrice :=
    (calculateFeePerProof_modified_le batchLen gasPrice).trans
      (calculateFeePerProofWithGasPrice_antitone gasPrice positive order)
  refine ⟨covered, ?_, ?_⟩
  · intro limits batchSize entry price cost fee
    have pays : ¬ calculateFeePerProof batchLen limits.gasPrice limits.constantGasCost >
        entry.maxFee := by
      rw [price, cost, fee]
      exact Nat.not_lt.mpr covered
    simp only [shouldRemove, decide_eq_false pays, Bool.or_false]
  · intro environment config system next task message sink addr data few updated idle accepted fee
    have least : next.currentMinMaxFee ≤ data.maxFee := by
      cases updated
      rw [fee]
      exact calculateFeePerProofWithGasPrice_antitone gasPrice positive few
    rw [System.receive, idle, accepted]
    exact if_neg (Nat.not_lt.mpr least)

/-- The estimate for one proof covers a batch of ten. -/
theorem estimate_suffices_ten :
    calculateFeePerProof 10 (modifiedGasPrice 7) defaultConstantGasCost ≤
      calculateFeePerProofWithGasPrice 1 7 :=
  (@estimate_suffices 1 10 (by decide) (by decide) 7).1

end AlignedLayer
