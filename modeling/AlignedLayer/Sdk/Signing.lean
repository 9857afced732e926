import AlignedLayer.Library.Eip712
import AlignedLayer.Sdk.Deserialize
import AlignedLayer.Sdk.Messages

/-!
# What a user signs

A user signs the commitment of a proof with the nonce and the fee, for one
chain and one payment contract.  The recovery of the signer from a hash and a
signature is a parameter.
-/

namespace AlignedLayer

/-- `NONCED_VERIFICATION_DATA_TYPE`. -/
def noncedVerificationDataType : Bytes :=
  ascii "NoncedVerificationData(bytes32 verification_data_hash,uint256 nonce,uint256 max_fee)"

namespace NoncedVerificationData

def domain (data : NoncedVerificationData) : Eip712.Domain where
  name := ascii "Aligned"
  version := ascii "1"
  chainId := data.chainId
  verifyingContract := data.paymentServiceAddr.toNat

/-- The fields of the Rust type are `U256` values. -/
structure InRange (data : NoncedVerificationData) : Prop where
  nonce : data.nonce ≤ u256Max
  maxFee : data.maxFee ≤ u256Max
  chainId : data.chainId ≤ u256Max

instance (data : NoncedVerificationData) : Decidable data.InRange :=
  decidable_of_iff (data.nonce ≤ u256Max ∧ data.maxFee ≤ u256Max ∧ data.chainId ≤ u256Max)
    ⟨fun bounds => ⟨bounds.1, bounds.2.1, bounds.2.2⟩,
      fun inRange => ⟨inRange.nonce, inRange.maxFee, inRange.chainId⟩⟩

section Keccak

variable (keccak : Bytes → Bytes32)

def structHash (data : NoncedVerificationData) : Bytes32 :=
  let typeHash := keccak noncedVerificationDataType
  let verificationDataHash := VerificationCommitmentBatch.hashData keccak
    (.ofVerificationData keccak data.verificationData)
  keccak (typeHash.toList ++ verificationDataHash.toList
    ++ (Eip712.numberWord data.nonce).toList ++ (Eip712.numberWord data.maxFee).toList)

/-- `encode_eip712`, the hash that is signed. -/
def encodeEip712 (data : NoncedVerificationData) : Bytes32 :=
  keccak ([0x19, 0x01] ++ (data.domain.separator keccak).toList
    ++ (data.structHash keccak).toList)

/-- The commitment of the proof, which becomes a leaf of its batch. -/
def commitment (data : NoncedVerificationData) : VerificationDataCommitment :=
  .ofVerificationData keccak data.verificationData

/-! ## The struct behind the hash -/

def typedStruct (data : NoncedVerificationData) : Eip712.Struct where
  type := noncedVerificationDataType
  members := [VerificationCommitmentBatch.hashData keccak (data.commitment keccak),
    Eip712.numberWord data.nonce, Eip712.numberWord data.maxFee]

/-- Everything that is hashed for a signature of the data, from the leaf on. -/
def signingMessages (data : NoncedVerificationData) : List Bytes :=
  VerificationCommitmentBatch.leafBytes (data.commitment keccak) ::
    Eip712.messages keccak data.domain (data.typedStruct keccak)

end Keccak

variable {keccak : Bytes → Bytes32} {left right : NoncedVerificationData}

theorem structHash_eq (data : NoncedVerificationData) :
    data.structHash keccak = Eip712.hashStruct keccak (data.typedStruct keccak) := by
  simp [structHash, Eip712.hashStruct, Eip712.encodeData, typedStruct, commitment]

theorem encodeEip712_eq (data : NoncedVerificationData) :
    data.encodeEip712 keccak =
      Eip712.signingHash keccak data.domain (data.typedStruct keccak) := by
  rw [encodeEip712, structHash_eq, Eip712.signingHash, Eip712.signingBytes]

/-- Both stand for the same proof with the same nonce and fee, on the same
chain and contract. -/
structure SignedAs (keccak : Bytes → Bytes32) (left right : NoncedVerificationData) : Prop where
  commitment : left.commitment keccak = right.commitment keccak
  nonce : left.nonce = right.nonce
  maxFee : left.maxFee = right.maxFee
  chainId : left.chainId = right.chainId
  paymentServiceAddr : left.paymentServiceAddr = right.paymentServiceAddr

theorem InRange.domain (inRange : left.InRange) : left.domain.InRange := by
  have chainId := inRange.chainId
  have contract := left.paymentServiceAddr.isLt
  rw [u256Max] at chainId
  refine ⟨?_, ?_⟩
  · simp only [NoncedVerificationData.domain]
    omega
  · simp only [NoncedVerificationData.domain]
    omega

/-- A signature of one is a signature of the other only if they agree in
everything that is signed. -/
theorem signedAs_of_encodeEip712_eq {hashed : Set Bytes} (free : Set.InjOn keccak hashed)
    (leftRange : left.InRange) (rightRange : right.InRange)
    (leftHashed : ∀ message ∈ left.signingMessages keccak, message ∈ hashed)
    (rightHashed : ∀ message ∈ right.signingMessages keccak, message ∈ hashed)
    (same : left.encodeEip712 keccak = right.encodeEip712 keccak) :
    left.SignedAs keccak right := by
  rw [encodeEip712_eq, encodeEip712_eq] at same
  obtain ⟨domains, structs⟩ := Eip712.signingHash_injOn free leftRange.domain rightRange.domain
    (fun message member => leftHashed _ (List.mem_cons_of_mem _ member))
    (fun message member => rightHashed _ (List.mem_cons_of_mem _ member)) same
  simp only [domain, Eip712.Domain.mk.injEq, true_and] at domains
  simp only [typedStruct, Eip712.Struct.mk.injEq, List.cons.injEq, true_and, and_true] at structs
  obtain ⟨leaves, nonces, fees⟩ := structs
  have inWord : ∀ {number : Nat}, number ≤ u256Max → number < 2 ^ 256 := by
    intro number bound
    rw [u256Max] at bound
    omega
  have sameLeaf := free (leftHashed _ List.mem_cons_self) (rightHashed _ List.mem_cons_self) leaves
  exact {
    commitment := leafBytes_injective sameLeaf
    nonce := Eip712.numberWord_injOn (inWord leftRange.nonce) (inWord rightRange.nonce) nonces
    maxFee := Eip712.numberWord_injOn (inWord leftRange.maxFee) (inWord rightRange.maxFee) fees
    chainId := domains.1
    paymentServiceAddr := BitVec.eq_of_toNat_eq domains.2 }

end NoncedVerificationData

/-- `verify_signature`: the recovered address, once it is confirmed that the
signature is its signature of the hash.  `recover` is the recovery of the
signature library, which its `verify` uses again. -/
def SubmitProofMessage.verifySignature (keccak : Bytes → Bytes32)
    (recover : Bytes32 → Signature → Option Address) (message : SubmitProofMessage) :
    Option Address :=
  match recover (message.verificationData.encodeEip712 keccak) message.signature with
  | none => none
  | some recovered =>
      let hashedData := message.verificationData.encodeEip712 keccak
      if recover hashedData message.signature = some recovered then
        some recovered
      else
        none

theorem SubmitProofMessage.verifySignature_eq (keccak : Bytes → Bytes32)
    (recover : Bytes32 → Signature → Option Address) (message : SubmitProofMessage) :
    message.verifySignature keccak recover =
      recover (message.verificationData.encodeEip712 keccak) message.signature := by
  rw [verifySignature]
  cases recovered : recover (message.verificationData.encodeEip712 keccak) message.signature with
  | none => rfl
  | some address => simp [recovered]

end AlignedLayer
