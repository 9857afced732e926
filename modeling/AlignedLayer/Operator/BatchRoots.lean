import AlignedLayer.Library.CollisionFree
import AlignedLayer.Library.MerkleBinding
import AlignedLayer.Operator.Download

/-!
# What the root of a batch says about its proofs

Leaves and inner nodes share one hash function but not the length of what is
hashed, so a root stands for one padded list of commitments.
-/

namespace AlignedLayer

open VerificationCommitmentBatch

/-- What is hashed for the tree of a batch. -/
def batchMessages (keccak : Bytes → Bytes32) (batch : List VerificationDataCommitment) :
    List Bytes :=
  MerkleTree.rootMessages keccak nodeBytes (batch.map leafBytes)

/-- The two lists of commitments differ in repetitions of the last one only. -/
structure SameProofs (left right : List VerificationDataCommitment) : Prop where
  padded : MerkleTree.padded left = MerkleTree.padded right
  mem : ∀ commitment, commitment ∈ left ↔ commitment ∈ right
  longer : ∀ last ∈ left.getLast?, left.length ≤ right.length →
    right = left ++ List.replicate (right.length - left.length) last
  shorter : ∀ last ∈ right.getLast?, right.length ≤ left.length →
    left = right ++ List.replicate (left.length - right.length) last

variable {keccak : Bytes → Bytes32} {crate : MerkleTreeCrate VerificationDataCommitment Bytes32}
  {left right : List VerificationDataCommitment}

theorem SameProofs.of_padded (leftNonempty : left ≠ []) (rightNonempty : right ≠ [])
    (same : MerkleTree.padded left = MerkleTree.padded right) : SameProofs left right where
  padded := same
  mem commitment := by
    rw [← MerkleTree.mem_padded, same, MerkleTree.mem_padded]
  longer last isLast more := by
    rw [← List.getLast_of_mem_getLast? isLast]
    exact MerkleTree.eq_append_replicate_of_padded leftNonempty rightNonempty same more
  shorter last isLast fewer := by
    rw [← List.getLast_of_mem_getLast? isLast]
    exact MerkleTree.eq_append_replicate_of_padded rightNonempty leftNonempty same.symm fewer

theorem map_hashData (batch : List VerificationDataCommitment) :
    batch.map (hashData keccak) = (batch.map leafBytes).map keccak := by
  rw [List.map_map]
  rfl

theorem ne_nil_of_build
    (documented : crate.Documented (hashData keccak) (hashNewParent keccak))
    {root : Bytes32} (built : crate.build left = some root) : left ≠ [] := by
  rintro rfl
  rw [documented.build, List.map_nil, MerkleTree.root, if_pos rfl] at built
  cases built

theorem sameProofs_of_build
    (documented : crate.Documented (hashData keccak) (hashNewParent keccak)) {root : Bytes32}
    (free : Set.InjOn keccak {message | message ∈ batchMessages keccak left ∨
      message ∈ batchMessages keccak right})
    (leftBuilt : crate.build left = some root) (rightBuilt : crate.build right = some root) :
    SameProofs left right := by
  have leftNonempty := ne_nil_of_build documented leftBuilt
  have rightNonempty := ne_nil_of_build documented rightBuilt
  apply SameProofs.of_padded leftNonempty rightNonempty
  rw [documented.build, map_hashData] at leftBuilt rightBuilt
  have sameBytes : MerkleTree.padded (left.map leafBytes) =
      MerkleTree.padded (right.map leafBytes) := by
    apply MerkleTree.padded_eq_of_root _ _ free leftBuilt rightBuilt
    · exact fun first second first' second' same => nodeBytes_injective same
    · -- A leaf has 116 bytes, a pair of nodes 64.
      intro leaf member first second isPair
      obtain ⟨commitment, rfl⟩ : ∃ commitment, leafBytes commitment = leaf := by
        rcases List.mem_append.mp member with inLeft | inRight
        · obtain ⟨commitment, -, same⟩ := List.mem_map.mp inLeft
          exact ⟨commitment, same⟩
        · obtain ⟨commitment, -, same⟩ := List.mem_map.mp inRight
          exact ⟨commitment, same⟩
      have lengths := congrArg List.length isPair
      rw [length_leafBytes, length_nodeBytes] at lengths
      cases lengths
  rw [MerkleTree.padded_map, MerkleTree.padded_map] at sameBytes
  exact List.map_injective_iff.mpr (fun _ _ => leafBytes_injective) sameBytes

namespace Operator

theorem build_of_verified {formats : Formats} {batchBytes : Bytes} {merkleRoot : Bytes32}
    (verified : innerVerifyMerkleTreeBatchFfi formats keccak crate batchBytes merkleRoot = true) :
    ∃ decoded, decodedBatch formats batchBytes = some decoded ∧
      crate.build (decoded.map (VerificationDataCommitment.ofVerificationData keccak)) =
        some merkleRoot := by
  rw [innerVerifyMerkleTreeBatchFfi] at verified
  split at verified
  · cases verified
  · split at verified
    · cases verified
    · rename_i decoded isDecoded
      split at verified
      · cases verified
      · split at verified
        · cases verified
        · rename_i computed built
          rw [decide_eq_true_iff] at verified
          exact ⟨decoded, isDecoded, verified ▸ built⟩

end Operator

/-- Two batches with the same root are padded to the same commitments.  So a
batch that passes the operator's check of the root the batcher committed to
contains the committed proofs and no other. -/
theorem batch_root_determines_proofs (keccak : Bytes → Bytes32)
    (crate : MerkleTreeCrate VerificationDataCommitment Bytes32)
    (documented : crate.Documented (hashData keccak) (hashNewParent keccak)) :
    (∀ left right merkleRoot,
      Set.InjOn keccak {message | message ∈ batchMessages keccak left ∨
        message ∈ batchMessages keccak right} →
      crate.build left = some merkleRoot → crate.build right = some merkleRoot →
        SameProofs left right) ∧
    ∀ formats batchBytes committed merkleRoot,
      crate.build committed = some merkleRoot →
      Operator.innerVerifyMerkleTreeBatchFfi formats keccak crate batchBytes merkleRoot = true →
      ∃ decoded, Operator.decodedBatch formats batchBytes = some decoded ∧
        (Set.InjOn keccak {message | message ∈ batchMessages keccak committed ∨
          message ∈ batchMessages keccak
            (decoded.map (VerificationDataCommitment.ofVerificationData keccak))} →
        ∀ commitment, commitment ∈ committed ↔ commitment ∈
          decoded.map (VerificationDataCommitment.ofVerificationData keccak)) := by
  constructor
  · intro left right merkleRoot free leftBuilt rightBuilt
    exact sameProofs_of_build documented free leftBuilt rightBuilt
  · intro formats batchBytes committed merkleRoot committedBuilt verified
    obtain ⟨decoded, isDecoded, built⟩ := Operator.build_of_verified verified
    refine ⟨decoded, isDecoded, ?_⟩
    intro free
    exact (sameProofs_of_build documented free committedBuilt built).mem

namespace Sample

def word (byte : UInt8) : Bytes32 :=
  Bytes32.zero.setIfInBounds 0 byte

/-- A hash that tells the few messages of a small tree apart. -/
def checksum (message : Bytes) : Bytes32 :=
  word (message.foldl (fun digest byte => 5 * digest + byte) (UInt8.ofNat message.length))

def namedCommitment (name : UInt8) : VerificationDataCommitment :=
  { proofCommitment := word name
    pubInputCommitment := Bytes32.zero
    provingSystemAuxDataCommitment := Bytes32.zero
    proofGeneratorAddr := Vector.replicate 20 0 }

/-- Three proofs, and the same with the last one repeated. -/
def threeProofs : List VerificationDataCommitment :=
  [namedCommitment 1, namedCommitment 2, namedCommitment 3]

def repeatedLast : List VerificationDataCommitment :=
  threeProofs ++ [namedCommitment 3]

theorem checksum_injOn : Set.InjOn checksum {message |
    message ∈ batchMessages checksum threeProofs ∨
      message ∈ batchMessages checksum repeatedLast} := by
  have free : Set.InjOn checksum {message |
      message ∈ batchMessages checksum threeProofs ++ batchMessages checksum repeatedLast} := by
    refine @injOn_of_nodup _ _ _ _ (batchMessages checksum threeProofs) ?_ ?_
    · decide +kernel
    · decide +kernel
  exact free.mono fun message member => List.mem_append.mpr member

end Sample

theorem batch_root_determines_proofs_repeated :
    SameProofs Sample.threeProofs Sample.repeatedLast := by
  obtain ⟨sameProofs, -⟩ := batch_root_determines_proofs Sample.checksum _
    (MerkleTreeCrate.reference_documented _ _)
  apply sameProofs _ _ _ Sample.checksum_injOn rfl
  decide +kernel

end AlignedLayer
