import AlignedLayer.Library.CollisionFree
import AlignedLayer.Operator.Verify
import Mathlib.Tactic.Common

/-!
# What a leaf binds

The commitment picks the program code or the verification key by presence,
the verifiers pick by proving system.  The two choices agree unless a data
set of a key-based system also carries program code.
-/

namespace AlignedLayer

/-- The gnark and circom systems verify against a verification key, SP1 and
Risc0 against program code. -/
def ProvingSystemId.usesVerificationKey : ProvingSystemId → Bool
  | .sp1 | .risc0 => false
  | _ => true

/-- Which optional fields a data set of a proving system carries. -/
structure Presence where
  provingSystem : ProvingSystemId
  pubInput : Bool
  verificationKey : Bool
  vmProgramCode : Bool
  deriving DecidableEq

/-- The fields the declared proving system requires are present. -/
def Presence.VerifierRuns (presence : Presence) : Prop :=
  if presence.provingSystem.usesVerificationKey then
    presence.verificationKey = true ∧ presence.pubInput = true
  else
    presence.vmProgramCode = true

instance (presence : Presence) : Decidable presence.VerifierRuns := by
  unfold Presence.VerifierRuns
  infer_instance

/-- Presence and proving system may choose different bytes for two data sets
of one proving system. -/
def Presence.Ambiguous (left right : Presence) : Prop :=
  left.provingSystem = right.provingSystem ∧
    left.provingSystem.usesVerificationKey = true ∧
    (left.vmProgramCode = true ∨ right.vmProgramCode = true)

namespace VerificationData

def presence (data : VerificationData) : Presence :=
  { provingSystem := data.provingSystem
    pubInput := data.pubInput.isSome
    verificationKey := data.verificationKey.isSome
    vmProgramCode := data.vmProgramCode.isSome }

/-- The key or the program code the declared proving system is verified
against. -/
def verifiedAgainst (data : VerificationData) : Option Bytes :=
  if data.provingSystem.usesVerificationKey then data.verificationKey else data.vmProgramCode

/-- The verifiers consume the same bytes for both data sets. -/
structure SameVerifierInputs (left right : VerificationData) : Prop where
  provingSystem : left.provingSystem = right.provingSystem
  proof : left.proof = right.proof
  pubInput : left.pubInput = right.pubInput
  verifiedAgainst : left.verifiedAgainst = right.verifiedAgainst

/-- Every message hashed on the way from a data set to its leaf. -/
def hashedMessages (keccak : Bytes → Bytes32) (data : VerificationData) : Set Bytes :=
  {message | message = data.proof ∨ message ∈ data.pubInput ∨ message ∈ data.auxData ∨
    message = VerificationCommitmentBatch.leafBytes
      (VerificationDataCommitment.ofVerificationData keccak data)}

/-- Keccak-256 has no collision, and no zero digest, among the messages
hashed for the two leaves. -/
def NoCollision (keccak : Bytes → Bytes32) (left right : VerificationData) : Prop :=
  CollisionFree keccak Bytes32.zero (left.hashedMessages keccak ∪ right.hashedMessages keccak)

/-! ## Verifiers see equal inputs as equal -/

theorem SameVerifierInputs.verifyInternal_eq {left right : VerificationData}
    (same : SameVerifierInputs left right) (verifier : VerifierCall → Bool) :
    ZkUtils.verifyInternal verifier left = ZkUtils.verifyInternal verifier right := by
  obtain ⟨system, proof, pubInput, against⟩ := same
  cases left
  cases right
  simp only at system proof pubInput
  subst system proof pubInput
  rename_i system _ _ _ _ _ _ _ _
  cases system <;>
    simp_all [VerificationData.verifiedAgainst, ProvingSystemId.usesVerificationKey, ZkUtils.verifyInternal]

theorem SameVerifierInputs.operatorVerify_eq {left right : VerificationData}
    (same : SameVerifierInputs left right) (verifier : VerifierCall → Bool) (bitmap : Nat) :
    Operator.verify verifier bitmap (.ofSdk left) =
      Operator.verify verifier bitmap (.ofSdk right) := by
  obtain ⟨system, proof, pubInput, against⟩ := same
  cases left
  cases right
  simp only at system proof pubInput
  subst system proof pubInput
  rename_i system _ _ _ _ _ _ _ _
  cases system <;>
    simp_all [VerificationData.verifiedAgainst, ProvingSystemId.usesVerificationKey, Operator.verify,
      Operator.verifierCall, Operator.VerificationData.ofSdk, ProvingSystemId.toByte]

/-! ## From equal leaves to equal commitments -/

/-- Equal leaves commit to the same proof, the same public input and the same
auxiliary bytes. -/
theorem committed_eq_of_leafHash_eq {keccak : Bytes → Bytes32} {left right : VerificationData}
    (free : NoCollision keccak left right)
    (same : left.leafHash keccak = right.leafHash keccak) :
    left.proof = right.proof ∧ left.pubInput = right.pubInput ∧
      left.auxData = right.auxData := by
  have leafLeft : VerificationCommitmentBatch.leafBytes (.ofVerificationData keccak left) ∈
      left.hashedMessages keccak := .inr (.inr (.inr rfl))
  have leafRight : VerificationCommitmentBatch.leafBytes (.ofVerificationData keccak right) ∈
      right.hashedMessages keccak := .inr (.inr (.inr rfl))
  have commitments := leafBytes_injective
    (free.injective _ (.inl leafLeft) _ (.inr leafRight) same)
  simp only [VerificationDataCommitment.ofVerificationData, VerificationDataCommitment.mk.injEq]
    at commitments
  obtain ⟨proofs, publicInputs, auxiliaries, -⟩ := commitments
  refine ⟨free.injective _ (.inl (.inl rfl)) _ (.inr (.inl rfl)) proofs, ?_, ?_⟩
  · exact free.option_eq (fun _ member => .inl (.inr (.inl member)))
      (fun _ member => .inr (.inr (.inl member))) publicInputs
  · exact free.option_eq (fun _ member => .inl (.inr (.inr (.inl member))))
      (fun _ member => .inr (.inr (.inr (.inl member)))) auxiliaries

/-- The bytes the auxiliary commitment covers besides the proving system. -/
def committedAgainst (data : VerificationData) : Option Bytes :=
  data.vmProgramCode <|> data.verificationKey

theorem auxData_eq_map (data : VerificationData) :
    data.auxData =
      data.committedAgainst.map fun bytes => bytes ++ [data.provingSystem.toByte] := by
  unfold auxData committedAgainst
  cases data.vmProgramCode <;> cases data.verificationKey <;> rfl

theorem committedAgainst_isSome {data : VerificationData} (runs : data.presence.VerifierRuns) :
    ∃ bytes, data.committedAgainst = some bytes := by
  unfold Presence.VerifierRuns presence at runs
  unfold committedAgainst
  cases code : data.vmProgramCode with
  | some bytes => exact ⟨bytes, rfl⟩
  | none =>
      cases key : data.verificationKey with
      | some bytes => exact ⟨bytes, rfl⟩
      | none => simp [code, key] at runs

/-- The last byte of the auxiliary message is the proving system. -/
theorem system_and_committed_eq {left right : VerificationData}
    (leftRuns : left.presence.VerifierRuns) (rightRuns : right.presence.VerifierRuns)
    (same : left.auxData = right.auxData) :
    left.provingSystem = right.provingSystem ∧
      left.committedAgainst = right.committedAgainst := by
  obtain ⟨leftBytes, leftCommitted⟩ := committedAgainst_isSome leftRuns
  obtain ⟨rightBytes, rightCommitted⟩ := committedAgainst_isSome rightRuns
  rw [auxData_eq_map, auxData_eq_map, leftCommitted, rightCommitted] at same
  simp only [Option.map_some, Option.some.injEq] at same
  obtain ⟨bytes, systems⟩ := List.append_inj' same rfl
  refine ⟨ProvingSystemId.toByte_injective (by simpa using systems), ?_⟩
  rw [leftCommitted, rightCommitted, bytes]

/-- A data set for which presence and proving system make the same choice. -/
theorem committedAgainst_eq_verifiedAgainst {data : VerificationData}
    (runs : data.presence.VerifierRuns)
    (noCode : data.provingSystem.usesVerificationKey = true → data.vmProgramCode = none) :
    data.committedAgainst = data.verifiedAgainst := by
  unfold Presence.VerifierRuns presence at runs
  unfold committedAgainst verifiedAgainst
  by_cases keyBased : data.provingSystem.usesVerificationKey = true
  · simp [keyBased, noCode keyBased]
  · simp only [keyBased, Bool.false_eq_true, if_false] at runs ⊢
    obtain ⟨bytes, code⟩ := Option.isSome_iff_exists.mp runs
    simp [code]

/-! ## The exact condition -/

theorem sameVerifierInputs_of_leafHash_eq {keccak : Bytes → Bytes32}
    {left right : VerificationData} (leftRuns : left.presence.VerifierRuns)
    (rightRuns : right.presence.VerifierRuns)
    (unambiguous : ¬ left.presence.Ambiguous right.presence)
    (free : NoCollision keccak left right)
    (same : left.leafHash keccak = right.leafHash keccak) :
    SameVerifierInputs left right := by
  obtain ⟨proofs, publicInputs, auxiliaries⟩ := committed_eq_of_leafHash_eq free same
  obtain ⟨systems, committed⟩ := system_and_committed_eq leftRuns rightRuns auxiliaries
  have leftNoCode : left.provingSystem.usesVerificationKey = true →
      left.vmProgramCode = none := by
    intro keyBased
    by_contra present
    exact unambiguous ⟨systems, keyBased, .inl (Option.isSome_iff_ne_none.mpr present)⟩
  have rightNoCode : right.provingSystem.usesVerificationKey = true →
      right.vmProgramCode = none := by
    intro keyBased
    by_contra present
    rw [← systems] at keyBased
    exact unambiguous ⟨systems, keyBased, .inr (Option.isSome_iff_ne_none.mpr present)⟩
  refine ⟨systems, proofs, publicInputs, ?_⟩
  rw [← committedAgainst_eq_verifiedAgainst leftRuns leftNoCode,
    ← committedAgainst_eq_verifiedAgainst rightRuns rightNoCode, committed]

/-- A stand-in for Keccak-256 that tells messages of different small lengths
apart. -/
def lengthDigest (message : Bytes) : Bytes32 :=
  Vector.replicate 32 (UInt8.ofNat (message.length % 255 + 1))

private theorem lengthDigest_getElem (message : Bytes) :
    (lengthDigest message)[0].toNat = message.length % 255 + 1 := by
  have bound : message.length % 255 < 255 := Nat.mod_lt _ (by decide)
  simp only [lengthDigest, Vector.getElem_replicate, UInt8.toNat_ofNat']
  omega

theorem length_eq_of_lengthDigest_eq {left right : Bytes} (leftShort : left.length < 255)
    (rightShort : right.length < 255) (same : lengthDigest left = lengthDigest right) :
    left.length = right.length := by
  have first : (lengthDigest left)[0].toNat = (lengthDigest right)[0].toNat := by rw [same]
  rw [lengthDigest_getElem, lengthDigest_getElem] at first
  omega

theorem lengthDigest_ne_zero (message : Bytes) : lengthDigest message ≠ Bytes32.zero := by
  intro same
  have first : (lengthDigest message)[0].toNat = (Bytes32.zero)[0].toNat := by rw [same]
  rw [lengthDigest_getElem] at first
  simp [Bytes32.zero] at first

/-- A data set that commits to `[1]`.  When program
code is present the verification key is `key`, which nothing commits to. -/
def ambiguousSample (system : ProvingSystemId) (vmProgramCode : Bool) (key : Bytes) :
    VerificationData :=
  { provingSystem := system
    proof := []
    pubInput := some [0, 0, 0]
    verificationKey := some (if vmProgramCode then key else [1])
    vmProgramCode := if vmProgramCode then some [1] else none
    proofGeneratorAddr := 0 }

theorem auxData_ambiguousSample (system : ProvingSystemId) (vmProgramCode : Bool) (key : Bytes) :
    (ambiguousSample system vmProgramCode key).auxData = some [1, system.toByte] := by
  cases vmProgramCode <;> rfl

/-- The commitment of a sample depends on its proving system only. -/
theorem commitment_ambiguousSample (keccak : Bytes → Bytes32) (system : ProvingSystemId)
    (leftCode rightCode : Bool) (leftKey rightKey : Bytes) :
    VerificationDataCommitment.ofVerificationData keccak
        (ambiguousSample system leftCode leftKey) =
      VerificationDataCommitment.ofVerificationData keccak
        (ambiguousSample system rightCode rightKey) := by
  simp only [VerificationDataCommitment.ofVerificationData, auxData_ambiguousSample]
  rfl

theorem hashedMessages_ambiguousSample {system : ProvingSystemId} {vmProgramCode : Bool}
    {key message : Bytes}
    (member : message ∈ (ambiguousSample system vmProgramCode key).hashedMessages lengthDigest) :
    message ∈ [[], [0, 0, 0], [1, system.toByte],
      VerificationCommitmentBatch.leafBytes (.ofVerificationData lengthDigest
        (ambiguousSample system true []))] := by
  rw [commitment_ambiguousSample lengthDigest system true vmProgramCode [] key]
  rcases member with rfl | publicInput | auxiliary | rfl
  · simp [ambiguousSample]
  · simp only [ambiguousSample, Option.mem_def, Option.some.injEq] at publicInput
    simp [publicInput]
  · rw [auxData_ambiguousSample, Option.mem_def, Option.some.injEq] at auxiliary
    simp [auxiliary]
  · simp

theorem noCollision_ambiguousSample (system : ProvingSystemId) (leftCode rightCode : Bool)
    (leftKey rightKey : Bytes) :
    NoCollision lengthDigest (ambiguousSample system leftCode leftKey)
      (ambiguousSample system rightCode rightKey) := by
  have leafLength : ∀ leaf, (VerificationCommitmentBatch.leafBytes leaf).length = 116 := by
    intro leaf
    simp [VerificationCommitmentBatch.leafBytes]
  have listed : ∀ message ∈ (ambiguousSample system leftCode leftKey).hashedMessages lengthDigest ∪
      (ambiguousSample system rightCode rightKey).hashedMessages lengthDigest,
      message ∈ [[], [0, 0, 0], [1, system.toByte],
        VerificationCommitmentBatch.leafBytes (.ofVerificationData lengthDigest
          (ambiguousSample system true []))] := by
    rintro message (member | member)
    · exact hashedMessages_ambiguousSample member
    · exact hashedMessages_ambiguousSample member
  refine ⟨?_, fun message _ => lengthDigest_ne_zero message⟩
  intro left leftMember right rightMember same
  have leftListed := listed left leftMember
  have rightListed := listed right rightMember
  -- The four messages have lengths 0, 3, 2 and 116.
  simp only [List.mem_cons, List.not_mem_nil, or_false] at leftListed rightListed
  have shortLeft : left.length < 255 := by
    rcases leftListed with rfl | rfl | rfl | rfl <;> simp [leafLength]
  have shortRight : right.length < 255 := by
    rcases rightListed with rfl | rfl | rfl | rfl <;> simp [leafLength]
  have lengths := length_eq_of_lengthDigest_eq shortLeft shortRight same
  rcases leftListed with rfl | rfl | rfl | rfl <;>
    rcases rightListed with rfl | rfl | rfl | rfl <;>
    first | rfl | simp [leafLength] at lengths

/-- Two ambiguous presence patterns carry data sets with one leaf, under any
hash function, that are verified against different keys. -/
theorem exists_same_leaf_of_ambiguous {left right : Presence} (leftRuns : left.VerifierRuns)
    (rightRuns : right.VerifierRuns) (ambiguous : left.Ambiguous right) :
    ∃ leftKey rightKey,
      (ambiguousSample left.provingSystem left.vmProgramCode leftKey).presence = left ∧
      (ambiguousSample left.provingSystem right.vmProgramCode rightKey).presence = right ∧
      ¬ SameVerifierInputs (ambiguousSample left.provingSystem left.vmProgramCode leftKey)
        (ambiguousSample left.provingSystem right.vmProgramCode rightKey) := by
  obtain ⟨systems, keyBased, code⟩ := ambiguous
  obtain ⟨leftSystem, leftInput, leftKey, leftCode⟩ := left
  obtain ⟨rightSystem, rightInput, rightKey, rightCode⟩ := right
  simp only at systems keyBased code
  subst rightSystem
  simp only [Presence.VerifierRuns, keyBased, if_true] at leftRuns rightRuns
  obtain ⟨rfl, rfl⟩ := leftRuns
  obtain ⟨rfl, rfl⟩ := rightRuns
  refine ⟨[2], [3], ?_, ?_, ?_⟩
  · cases leftCode <;> rfl
  · cases rightCode <;> rfl
  · rintro ⟨-, -, -, against⟩
    simp only [VerificationData.verifiedAgainst, ambiguousSample, keyBased, if_true,
      Option.some.injEq] at against
    cases leftCode <;> cases rightCode <;> simp at against code

end VerificationData

/-- For two presence patterns whose verifiers run, equal leaves imply equal
verifier inputs exactly when the patterns are not ambiguous. -/
theorem leaf_binds_verifier_inputs_iff (left right : Presence)
    (leftRuns : left.VerifierRuns) (rightRuns : right.VerifierRuns) :
    (∀ (keccak : Bytes → Bytes32) (leftData rightData : VerificationData),
        leftData.presence = left → rightData.presence = right →
        VerificationData.NoCollision keccak leftData rightData →
        leftData.leafHash keccak = rightData.leafHash keccak →
        VerificationData.SameVerifierInputs leftData rightData) ↔
      ¬ left.Ambiguous right := by
  constructor
  · intro binds ambiguous
    obtain ⟨leftKey, rightKey, leftPresence, rightPresence, different⟩ :=
      VerificationData.exists_same_leaf_of_ambiguous leftRuns rightRuns ambiguous
    apply different
    refine binds VerificationData.lengthDigest _ _ leftPresence rightPresence
      (VerificationData.noCollision_ambiguousSample _ _ _ _ _) ?_
    simp only [VerificationData.leafHash]
    rw [VerificationData.commitment_ambiguousSample]
  · rintro unambiguous keccak leftData rightData rfl rfl free same
    exact VerificationData.sameVerifierInputs_of_leafHash_eq leftRuns rightRuns unambiguous
      free same

/-- SP1 never reads the verification key, so two keys make no difference. -/
theorem leaf_binds_verifier_inputs_sp1 :
    VerificationData.SameVerifierInputs (VerificationData.ambiguousSample .sp1 true [2])
      (VerificationData.ambiguousSample .sp1 true [3]) := by
  have binds := (leaf_binds_verifier_inputs_iff ⟨.sp1, true, true, true⟩ ⟨.sp1, true, true, true⟩
    (by decide) (by decide)).mpr (by
      intro ambiguous
      exact absurd ambiguous.2.1 (by decide))
  apply binds VerificationData.lengthDigest _ _ rfl rfl
  · exact VerificationData.noCollision_ambiguousSample _ _ _ _ _
  · simp only [VerificationData.leafHash]
    rw [VerificationData.commitment_ambiguousSample]

/-- A Groth16 data set that also carries program code: the leaf commits to the
code and not to the verification key. -/
def groth16WithCode (verificationKey : Bytes) : VerificationData :=
  { provingSystem := .gnarkGroth16Bn254
    proof := [1, 2, 3]
    pubInput := some [4]
    verificationKey := some verificationKey
    vmProgramCode := some [5]
    proofGeneratorAddr := 0 }

/-- Under every hash function two such data sets with different keys share
their leaf, although the verifiers run on both. -/
theorem leaf_does_not_bind_verification_key :
    (groth16WithCode [7]).presence.VerifierRuns ∧
      (groth16WithCode [8]).presence.VerifierRuns ∧
      (∀ keccak, (groth16WithCode [7]).leafHash keccak = (groth16WithCode [8]).leafHash keccak) ∧
      (groth16WithCode [7]).verificationKey ≠ (groth16WithCode [8]).verificationKey := by
  refine ⟨by decide, by decide, fun _ => rfl, by decide⟩

end AlignedLayer
