import AlignedLayer.Sdk.VerificationData

/-!
# Proof verification in the batcher

The verifiers themselves are third-party code; what the batcher decides is
which of them is called on which bytes.
-/

namespace AlignedLayer

/-- One call of a verifier, with the bytes it is given. -/
inductive VerifierCall where
  | sp1 (proof publicInputs elf : Bytes)
  | risc0 (innerReceipt imageId publicInput : Bytes)
  | gnark (provingSystem : ProvingSystemId) (proof publicInput verificationKey : Bytes)
  | circom (proof publicInput verificationKey : Bytes)
  deriving DecidableEq

namespace ZkUtils

/-- `verify_internal`: false when a required field is missing.  A Risc0 image
id of another length than 32 makes `copy_from_slice` panic, which the caller
turns into false. -/
def verifyInternal (verifier : VerifierCall → Bool) (data : VerificationData) : Bool :=
  match data.provingSystem with
  | .sp1 =>
      match data.vmProgramCode with
      | none => false
      | some elf => verifier (.sp1 data.proof (data.pubInput.getD []) elf)
  | .risc0 =>
      match data.vmProgramCode with
      | none => false
      | some imageId =>
          if imageId.length = 32 then
            verifier (.risc0 data.proof imageId (data.pubInput.getD []))
          else
            false
  | .circomGroth16Bn256 =>
      match data.pubInput, data.verificationKey with
      | some pubInput, some verificationKey =>
          verifier (.circom data.proof pubInput verificationKey)
      | _, _ => false
  | system =>
      match data.verificationKey, data.pubInput with
      | some verificationKey, some pubInput =>
          verifier (.gnark system data.proof pubInput verificationKey)
      | _, _ => false

/-- `disabled_verifiers & (1 << proving_system) != 0`. -/
def isVerifierDisabled (disabledVerifiers : Nat) (system : ProvingSystemId) : Bool :=
  disabledVerifiers.testBit system.toByte.toNat

end ZkUtils

end AlignedLayer
