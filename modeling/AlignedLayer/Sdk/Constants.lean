import Mathlib.Data.Nat.Notation

/-!
# Gas constants and the fee estimate of the SDK
-/

namespace AlignedLayer

def defaultAggregatorGasCost : Nat := 330000
def batcherSubmissionBaseGasCost : Nat := 125000
def additionalSubmissionGasCostPerProof : Nat := 2000
def percentageDivider : Nat := 100
def defaultAggregatorFeePercentageMultiplier : Nat := 125
def respondToTaskFeeLimitPercentageMultiplier : Nat := 250
def gasPricePercentageMultiplier : Nat := 110

def defaultConstantGasCost : Nat :=
  defaultAggregatorGasCost * defaultAggregatorFeePercentageMultiplier / percentageDivider
    + batcherSubmissionBaseGasCost

def defaultMaxFeePerProof : Nat := additionalSubmissionGasCostPerProof * 100000000000

def calculateFeePerProofWithGasPrice (numProofsInBatch gasPrice : Nat) : Nat :=
  let estimatedGasPerProof :=
    (defaultConstantGasCost + additionalSubmissionGasCostPerProof * numProofsInBatch)
      / numProofsInBatch
  estimatedGasPerProof * gasPrice * gasPricePercentageMultiplier / percentageDivider

/-- The most bytes CBOR adds to hold the elements of an array. -/
def cborArrayMaxOverhead : Nat := 9

end AlignedLayer
