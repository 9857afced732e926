import Mathlib.Data.BitVec
import Mathlib.Data.Vector.Basic

/-!
# Verification data and its commitment

The data model the clients, the batcher and the operators share, with the
commitment that becomes a leaf of a batch's Merkle tree.  Keccak-256 is a
parameter everywhere.
-/

namespace AlignedLayer

abbrev Address := BitVec 160

abbrev Bytes := List UInt8

abbrev Bytes32 := Vector UInt8 32

/-- `U256::MAX`.  A `U256` is a natural number here. -/
def u256Max : Nat := 2 ^ 256 - 1

def Bytes32.zero : Bytes32 := Vector.replicate 32 0

/-- The twenty bytes of an address, most significant first. -/
def Address.toBytes (address : Address) : Vector UInt8 20 :=
  Vector.ofFn fun index => UInt8.ofNat (address.toNat / 256 ^ (19 - index.val))

/-- A byte of a number determines its bits. -/
theorem testBit_eq_of_byte_eq {left right position : Nat}
    (same : UInt8.ofNat (left / 256 ^ (position / 8)) =
      UInt8.ofNat (right / 256 ^ (position / 8))) :
    left.testBit position = right.testBit position := by
  have bytes := congrArg UInt8.toNat same
  simp only [UInt8.toNat_ofNat'] at bytes
  have power : (256 : Nat) ^ (position / 8) = 2 ^ (8 * (position / 8)) := by
    rw [Nat.pow_mul]
  have bits := congrArg (fun byte => byte.testBit (position % 8)) bytes
  simp only [power, Nat.testBit_mod_two_pow, Nat.testBit_div_two_pow] at bits
  have inside : position % 8 < 8 := Nat.mod_lt _ (by decide)
  simpa [inside, Nat.div_add_mod, Nat.mod_add_div] using bits

theorem Address.toBytes_injective : Function.Injective Address.toBytes := by
  intro left right same
  apply BitVec.eq_of_getLsbD_eq
  intro position bound
  have index : 19 - position / 8 < 20 := by omega
  have bytes : left.toBytes[19 - position / 8] = right.toBytes[19 - position / 8] := by
    rw [same]
  simp only [Address.toBytes, Vector.getElem_ofFn] at bytes
  rw [show 19 - (19 - position / 8) = position / 8 by omega] at bytes
  exact testBit_eq_of_byte_eq bytes

inductive ProvingSystemId where
  | gnarkPlonkBls12_381
  | gnarkPlonkBn254
  | gnarkGroth16Bn254
  | sp1
  | risc0
  | circomGroth16Bn256
  deriving DecidableEq, Repr

/-- The discriminant, as in `proving_system as u8`. -/
def ProvingSystemId.toByte : ProvingSystemId → UInt8
  | .gnarkPlonkBls12_381 => 0
  | .gnarkPlonkBn254 => 1
  | .gnarkGroth16Bn254 => 2
  | .sp1 => 3
  | .risc0 => 4
  | .circomGroth16Bn256 => 5

theorem ProvingSystemId.toByte_injective : Function.Injective ProvingSystemId.toByte := by
  intro left right equality
  cases left <;> cases right <;> first | rfl | exact absurd equality (by decide)

structure VerificationData where
  provingSystem : ProvingSystemId
  proof : Bytes
  pubInput : Option Bytes
  verificationKey : Option Bytes
  vmProgramCode : Option Bytes
  proofGeneratorAddr : Address
  deriving DecidableEq

structure NoncedVerificationData where
  verificationData : VerificationData
  nonce : Nat
  maxFee : Nat
  chainId : Nat
  paymentServiceAddr : Address
  deriving DecidableEq

def cborOverheadBytes : Nat := 1024

/-- Upper bound of the CBOR encoding, computed without serializing. -/
def NoncedVerificationData.cborSizeUpperBound (data : NoncedVerificationData) : Nat :=
  let inner := data.verificationData
  inner.proof.length
    + (inner.pubInput.map List.length).getD 0
    + (inner.verificationKey.map List.length).getD 0
    + (inner.vmProgramCode.map List.length).getD 0
    + cborOverheadBytes

structure VerificationDataCommitment where
  proofCommitment : Bytes32
  pubInputCommitment : Bytes32
  provingSystemAuxDataCommitment : Bytes32
  proofGeneratorAddr : Vector UInt8 20
  deriving DecidableEq

/-- The bytes hashed into the auxiliary commitment: the program code when it
is present, else the verification key, followed by the proving system. -/
def VerificationData.auxData (data : VerificationData) : Option Bytes :=
  match data.vmProgramCode with
  | some vmProgramCode => some (vmProgramCode ++ [data.provingSystem.toByte])
  | none =>
      match data.verificationKey with
      | some verificationKey => some (verificationKey ++ [data.provingSystem.toByte])
      | none => none

section Keccak

variable (keccak : Bytes → Bytes32)

/-- An absent field is committed to as the zero word. -/
def hashOrZero (field : Option Bytes) : Bytes32 :=
  (field.map keccak).getD Bytes32.zero

/-- `impl From<VerificationData> for VerificationDataCommitment`. -/
def VerificationDataCommitment.ofVerificationData (data : VerificationData) :
    VerificationDataCommitment :=
  { proofCommitment := keccak data.proof
    pubInputCommitment := hashOrZero keccak data.pubInput
    provingSystemAuxDataCommitment := hashOrZero keccak data.auxData
    proofGeneratorAddr := data.proofGeneratorAddr.toBytes }

namespace VerificationCommitmentBatch

/-- The bytes `hash_data` feeds to the hasher for one leaf. -/
def leafBytes (leaf : VerificationDataCommitment) : Bytes :=
  leaf.proofCommitment.toList ++ leaf.pubInputCommitment.toList
    ++ leaf.provingSystemAuxDataCommitment.toList ++ leaf.proofGeneratorAddr.toList

def hashData (leaf : VerificationDataCommitment) : Bytes32 :=
  keccak (leafBytes leaf)

end VerificationCommitmentBatch

theorem leafBytes_injective {left right : VerificationDataCommitment}
    (same : VerificationCommitmentBatch.leafBytes left =
      VerificationCommitmentBatch.leafBytes right) : left = right := by
  obtain ⟨body, addresses⟩ := List.append_inj same (by simp)
  obtain ⟨inputs, auxiliaries⟩ := List.append_inj body (by simp)
  obtain ⟨proofs, publicInputs⟩ := List.append_inj inputs (by simp)
  cases left
  cases right
  simp only [Vector.toList_inj] at proofs publicInputs auxiliaries addresses
  simp only [proofs, publicInputs, auxiliaries, addresses]

/-- The leaf a data set stands for in a batch. -/
def VerificationData.leafHash (data : VerificationData) : Bytes32 :=
  VerificationCommitmentBatch.hashData keccak
    (VerificationDataCommitment.ofVerificationData keccak data)

end Keccak

end AlignedLayer
