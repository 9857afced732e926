import AlignedLayer.AggregationMode.Fetcher
import AlignedLayer.Library.UnorderedTree
import AlignedLayer.Sdk.BatchInclusion

/-!
# The aggregation programs

A run of the user-proofs aggregator verifies user proofs and commits to the
root of the tree over their commitments.  The chunk aggregator verifies such
runs, together with leaves that give the same root, and commits to the root of
the tree over all these leaves.  The programs of the two proving systems are
the same up to the constants.
-/

namespace AlignedLayer

namespace AggregationMode

/-- A program and what a proof of it makes public: `SP1VkAndPubInputs` with the
words of the key as bytes, or `Risc0ImageIdAndPubInputs`. -/
structure ProgramOutput where
  programId : Bytes32
  publicInputs : Bytes
  deriving DecidableEq

/-- `to_be_bytes` of a `u16`. -/
def u16Bytes (value : UInt16) : Bytes :=
  [UInt8.ofNat (value.toNat / 256), UInt8.ofNat value.toNat]

/-- `to_be_bytes` of a `u32`. -/
def u32Bytes (value : UInt32) : Vector UInt8 4 :=
  Vector.ofFn fun index => UInt8.ofNat (value.toNat / 256 ^ (3 - index.val))

/-- The words of a verification key as they are hashed. -/
def wordBytes (words : Vector UInt32 8) : Bytes32 :=
  (words.map u32Bytes).flatten

/-- What the commitment of a proof is the hash of. -/
def commitmentBytes (provingSystemId : UInt16) (proof : ProgramOutput) : Bytes :=
  u16Bytes provingSystemId ++ proof.programId.toList ++ proof.publicInputs

def commitment (keccak : Bytes → Bytes32) (provingSystemId : UInt16) (proof : ProgramOutput) :
    Bytes32 :=
  keccak (commitmentBytes provingSystemId proof)

/-- The bytes of an inner node: the smaller child comes first. -/
def nodeBytes (child₁ child₂ : Bytes32) : Bytes :=
  if child₁.toList < child₂.toList then child₁.toList ++ child₂.toList
  else child₂.toList ++ child₁.toList

def hashNewParent (keccak : Bytes → Bytes32) : Bytes32 → Bytes32 → Bytes32 :=
  MerkleTree.parentOf keccak nodeBytes

/-- A proving system, with the user-proofs aggregator that its chunk
aggregator accepts. -/
structure ProvingSystem where
  id : UInt16
  userProofsAggregator : Bytes32
  deriving DecidableEq

def sp1 : ProvingSystem :=
  { id := 1
    userProofsAggregator := wordBytes #v[1783055897, 486133361, 187778113, 1130718359, 781594768,
      1430967573, 1107098593, 1119970919] }

def risc0 : ProvingSystem :=
  { id := 2
    userProofsAggregator := #v[253, 36, 51, 43, 163, 223, 190, 136, 60, 123, 233, 240, 170, 213,
      170, 76, 117, 219, 15, 0, 47, 81, 218, 228, 232, 218, 86, 42, 145, 190, 144, 161] }

/-- The tree crate for the two kinds of leaves. -/
structure Crates where
  proofs : UInt16 → MerkleTreeCrate ProgramOutput Bytes32
  hashes : MerkleTreeCrate Bytes32 Bytes32

structure Crates.Documented (keccak : Bytes → Bytes32) (crates : Crates) : Prop where
  proofs : ∀ id, (crates.proofs id).Documented (commitment keccak id) (hashNewParent keccak)
  hashes : crates.hashes.Documented id (hashNewParent keccak)

section Programs

variable (crates : Crates) (system : ProvingSystem) (verify : ProgramOutput → Bool)

/-- The `main` of the user-proofs aggregator: what it commits to, unless it
panics. -/
def userProofsAggregator (proofs : List ProgramOutput) : Option Bytes :=
  if proofs.all verify then ((crates.proofs system.id).build proofs).map Vector.toList else none

/-- The loop of the chunk aggregator, which collects the leaves. -/
def chunkLeaves :
    List (ProgramOutput × List Bytes32) → List Bytes32 → Option (List Bytes32)
  | [], leaves => some leaves
  | (proof, leavesCommitment) :: rest, leaves =>
      if proof.programId = system.userProofsAggregator then
        match Bytes32.ofSlice proof.publicInputs, crates.hashes.build leavesCommitment with
        | some merkleRoot, some root =>
            if root = merkleRoot ∧ verify proof then
              chunkLeaves rest (leaves ++ leavesCommitment)
            else
              none
        | _, _ => none
      else
        none

/-- The `main` of the chunk aggregator. -/
def chunkAggregator (input : List (ProgramOutput × List Bytes32)) : Option Bytes :=
  (chunkLeaves crates system verify input []).bind fun leaves =>
    (crates.hashes.build leaves).map Vector.toList

end Programs

/-! ## What is hashed -/

theorem u16Bytes_injective : Function.Injective u16Bytes := by
  intro left right same
  simp only [u16Bytes, List.cons.injEq, and_true] at same
  have high := congrArg UInt8.toNat same.1
  have low := congrArg UInt8.toNat same.2
  simp only [UInt8.toNat_ofNat'] at high low
  have := left.toNat_lt
  have := right.toNat_lt
  apply UInt16.toNat_inj.mp
  omega

theorem commitmentBytes_injective {id id' : UInt16} {proof proof' : ProgramOutput}
    (same : commitmentBytes id proof = commitmentBytes id' proof') : id = id' ∧ proof = proof' := by
  obtain ⟨start, publicInputs⟩ := List.append_inj same (by simp [u16Bytes])
  obtain ⟨sameId, programId⟩ := List.append_inj start (by simp [u16Bytes])
  refine ⟨u16Bytes_injective sameId, ?_⟩
  obtain ⟨program, inputs⟩ := proof
  obtain ⟨program', inputs'⟩ := proof'
  rw [ProgramOutput.mk.injEq]
  exact ⟨Vector.toList_inj.mp programId, publicInputs⟩

theorem length_commitmentBytes (id : UInt16) (proof : ProgramOutput) :
    (commitmentBytes id proof).length = 34 + proof.publicInputs.length := by
  simp [commitmentBytes, u16Bytes]
  omega

theorem nodeBytes_comm (left right : Bytes32) : nodeBytes left right = nodeBytes right left := by
  rw [nodeBytes, nodeBytes]
  by_cases less : left.toList < right.toList
  · rw [if_pos less, if_neg (List.lt_asymm less)]
  · rw [if_neg less]
    by_cases greater : right.toList < left.toList
    · rw [if_pos greater]
    · rw [if_neg greater, List.le_antisymm greater less]

theorem length_nodeBytes (left right : Bytes32) : (nodeBytes left right).length = 64 := by
  rw [nodeBytes]
  split <;> simp

theorem nodeBytes_eq (left right : Bytes32) :
    nodeBytes left right = left.toList ++ right.toList ∨
      nodeBytes left right = right.toList ++ left.toList := by
  rw [nodeBytes]
  split
  · exact .inl rfl
  · exact .inr rfl

theorem nodeBytes_cases {left right left' right' : Bytes32}
    (same : nodeBytes left right = nodeBytes left' right') :
    (left = left' ∧ right = right') ∨ (left = right' ∧ right = left') := by
  have words : ∀ {a b c d : Bytes32}, a.toList ++ b.toList = c.toList ++ d.toList →
      a = c ∧ b = d := by
    intro a b c d equal
    obtain ⟨first, second⟩ := List.append_inj equal (by simp)
    exact ⟨Vector.toList_inj.mp first, Vector.toList_inj.mp second⟩
  rcases nodeBytes_eq left right with before | before
  · rcases nodeBytes_eq left' right' with after | after
    · exact .inl (words (before.symm.trans (same.trans after)))
    · exact .inr (words (before.symm.trans (same.trans after)))
  · rcases nodeBytes_eq left' right' with after | after
    · obtain ⟨first, second⟩ := words (before.symm.trans (same.trans after))
      exact .inr ⟨second, first⟩
    · obtain ⟨first, second⟩ := words (before.symm.trans (same.trans after))
      exact .inl ⟨second, first⟩

end AggregationMode

end AlignedLayer
