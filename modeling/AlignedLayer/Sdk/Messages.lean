import AlignedLayer.Sdk.VerificationData

/-!
# Messages between the clients and the batcher
-/

namespace AlignedLayer

/-- A client connection, as seen by the code that answers on it. -/
abbrev WsMessageSink := Nat

structure Signature where
  r : Nat
  s : Nat
  v : Nat
  deriving DecidableEq

structure SubmitProofMessage where
  verificationData : NoncedVerificationData
  signature : Signature
  deriving DecidableEq

inductive ProofInvalidReason where
  | rejectedProof
  | disabledVerifier (system : ProvingSystemId)
  deriving DecidableEq

/-- The answers `handle_submit_proof_msg` and the batch task give.  Of the
inclusion data of a proof only its position and its nonce are kept. -/
inductive SubmitProofResponseMessage where
  | batchInclusionData (verificationDataBatchIndex userProofNonce : Nat)
  | invalidProof (reason : ProofInvalidReason)
  | batchReset
  | invalidNonce
  | invalidSignature
  | proofTooLarge
  | invalidMaxFee
  | insufficientBalance (address : Address)
  | invalidChainId
  | invalidReplacementMessage
  | addToBatchError
  | ethRpcError
  | invalidPaymentServiceAddress (received expected : Address)
  | underpricedProof
  | serverBusy
  | userFundsUnlocked
  | proofReplaced
  deriving DecidableEq

end AlignedLayer
