import AlignedLayer.Batcher.BatchQueue

/-!
# Configuration of the batcher
-/

namespace AlignedLayer

/-- Proofs sent by `address` are paid by `replacement`. -/
structure NonPayingConfig where
  address : Address
  replacement : Address

structure Config where
  chainId : Nat
  /-- The address of `batcher_signer`, which sends the batcher's transactions. -/
  batcherSigner : Address
  paymentServiceAddr : Address
  minBlockInterval : Nat
  maxProofSize : Nat
  maxBatchByteSize : Nat
  maxBatchProofQty : Nat
  maxQueueSize : Nat
  preVerificationIsEnabled : Bool
  nonPayingConfig : Option NonPayingConfig
  aggregatorFeePercentageMultiplier : Nat
  aggregatorGasCost : Nat
  amountOfProofsForMinMaxFee : Nat
  minBumpPercentage : Nat

namespace Config

/-- An address has to pay unless it is the one configured as non-paying. -/
def hasToPay (config : Config) (address : Address) : Bool :=
  match config.nonPayingConfig with
  | none => true
  | some nonPaying => nonPaying.address ≠ address

def nonpayingReplacementAddr (config : Config) : Option Address :=
  config.nonPayingConfig.map NonPayingConfig.replacement

def constantGasCost (config : Config) : Nat :=
  config.aggregatorFeePercentageMultiplier * config.aggregatorGasCost / percentageDivider
    + batcherSubmissionBaseGasCost

def extractionLimits (config : Config) (gasPrice : Nat) : ExtractionLimits :=
  { gasPrice := gasPrice
    maxBatchByteSize := config.maxBatchByteSize
    maxBatchProofQty := config.maxBatchProofQty
    constantGasCost := config.constantGasCost }

end Config

/-! ## Concrete inputs

Entries and a configuration with small numbers, on which the definitions of
the batcher are run. -/

namespace Sample

def verificationData : VerificationData :=
  { provingSystem := .sp1
    proof := [1]
    pubInput := none
    verificationKey := none
    vmProgramCode := some [2]
    proofGeneratorAddr := 0 }

def noncedVerificationData (nonce maxFee : Nat) : NoncedVerificationData :=
  { verificationData := verificationData
    nonce := nonce
    maxFee := maxFee
    chainId := 1
    paymentServiceAddr := 0 }

/-- A commitment that differs for different senders and nonces. -/
def commitment (sender : Address) (nonce : Nat) : VerificationDataCommitment :=
  { proofCommitment := Vector.replicate 32 (UInt8.ofNat sender.toNat)
    pubInputCommitment := Vector.replicate 32 (UInt8.ofNat nonce)
    provingSystemAuxDataCommitment := Bytes32.zero
    proofGeneratorAddr := Vector.replicate 20 0 }

def entry (sender : Address) (nonce maxFee : Nat) : BatchQueueEntry :=
  { noncedVerificationData := noncedVerificationData nonce maxFee
    verificationDataCommitment := commitment sender nonce
    messagingSink := some sender.toNat
    signature := ⟨0, 0, 0⟩
    sender := sender }

def config (maxQueueSize : Nat) : Config :=
  { chainId := 1
    batcherSigner := 9
    paymentServiceAddr := 0
    minBlockInterval := 0
    maxProofSize := 10000
    maxBatchByteSize := 100000
    maxBatchProofQty := 10
    maxQueueSize := maxQueueSize
    preVerificationIsEnabled := false
    nonPayingConfig := none
    aggregatorFeePercentageMultiplier := 0
    aggregatorGasCost := 0
    amountOfProofsForMinMaxFee := 10
    minBumpPercentage := 10 }

end Sample

end AlignedLayer
