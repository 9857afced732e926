import AlignedLayer.Batcher.ZkUtils

/-!
# Proof verification in the operator
-/

namespace AlignedLayer.Operator

/-- The operator's view of a data set: absent fields are empty. -/
structure VerificationData where
  provingSystemId : UInt16
  proof : Bytes
  pubInput : Bytes
  verificationKey : Bytes
  vmProgramCode : Bytes
  deriving DecidableEq

/-- The data set the operator works on when the SDK's one was uploaded. -/
def VerificationData.ofSdk (data : AlignedLayer.VerificationData) : VerificationData :=
  { provingSystemId := data.provingSystem.toByte.toUInt16
    proof := data.proof
    pubInput := data.pubInput.getD []
    verificationKey := data.verificationKey.getD []
    vmProgramCode := data.vmProgramCode.getD [] }

/-- The verifier call the `switch` of `Operator.verify` makes, none for an
unrecognized proving system. -/
def verifierCall (data : VerificationData) : Option VerifierCall :=
  match data.provingSystemId with
  | 0 => some (.gnark .gnarkPlonkBls12_381 data.proof data.pubInput data.verificationKey)
  | 1 => some (.gnark .gnarkPlonkBn254 data.proof data.pubInput data.verificationKey)
  | 2 => some (.gnark .gnarkGroth16Bn254 data.proof data.pubInput data.verificationKey)
  | 3 => some (.sp1 data.proof data.pubInput data.vmProgramCode)
  | 4 => some (.risc0 data.proof data.vmProgramCode data.pubInput)
  | 5 => some (.circom data.proof data.pubInput data.verificationKey)
  | _ => none

/-- `IsVerifierDisabled`: the bitmap is truncated to 64 bits, and a shift by
64 or more leaves no bit. -/
def isVerifierDisabled (disabledVerifiersBitmap : Nat) (verifierId : UInt16) : Bool :=
  (disabledVerifiersBitmap % 2 ^ 64).testBit verifierId.toUInt8.toNat

/-- The result `Operator.verify` sends for one item. -/
def verify (verifier : VerifierCall → Bool) (disabledVerifiersBitmap : Nat)
    (data : VerificationData) : Bool :=
  if isVerifierDisabled disabledVerifiersBitmap data.provingSystemId then
    false
  else
    match verifierCall data with
    | some call => verifier call
    | none => false

end AlignedLayer.Operator
