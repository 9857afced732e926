import AlignedLayer.Library.MerkleTree
import AlignedLayer.Sdk.VerificationData

/-!
# Inclusion of a proof in a batch

What the batcher sends to a client about the position of its proof, and what
the client makes of it.  The Merkle tree crate is a parameter: `build` is the
root, and a tree is given by the list it was built from.
-/

namespace AlignedLayer

/-- The functions of `MerkleTree` and `Proof`, for one backend. -/
structure MerkleTreeCrate (Data Node : Type) where
  build : List Data → Option Node
  getProofByPos : List Data → Nat → Option (List Node)
  verify : List Node → Node → Nat → Data → Bool

/-- The crate pads to a power of two by repeating the last leaf, returns the
siblings from the leaf upwards, and reads the side off the index. -/
structure MerkleTreeCrate.Documented {Data Node : Type} (hashData : Data → Node)
    (hashNewParent : Node → Node → Node) (crate : MerkleTreeCrate Data Node) : Prop where
  build : ∀ leaves, crate.build leaves =
    MerkleTree.root hashNewParent (leaves.map hashData)
  getProofByPos : ∀ leaves index, index < leaves.length →
    crate.getProofByPos leaves index =
      MerkleTree.proofByPos hashNewParent (leaves.map hashData) index
  verify : ∀ path root index value, crate.verify path root index value = true ↔
    MerkleTree.climb hashNewParent path index (hashData value) = root

/-- A crate that behaves as documented. -/
def MerkleTreeCrate.reference {Data Node : Type} [DecidableEq Node] (hashData : Data → Node)
    (hashNewParent : Node → Node → Node) : MerkleTreeCrate Data Node where
  build leaves := MerkleTree.root hashNewParent (leaves.map hashData)
  getProofByPos leaves index := MerkleTree.proofByPos hashNewParent (leaves.map hashData) index
  verify path root index value :=
    MerkleTree.climb hashNewParent path index (hashData value) = root

theorem MerkleTreeCrate.reference_documented {Data Node : Type} [DecidableEq Node]
    (hashData : Data → Node) (hashNewParent : Node → Node → Node) :
    (reference hashData hashNewParent).Documented hashData hashNewParent where
  build _ := rfl
  getProofByPos _ _ _ := rfl
  verify _ _ _ _ := decide_eq_true_iff

namespace VerificationCommitmentBatch

/-- The bytes `hash_new_parent` feeds to the hasher. -/
def nodeBytes (left right : Bytes32) : Bytes :=
  left.toList ++ right.toList

def hashNewParent (keccak : Bytes → Bytes32) (left right : Bytes32) : Bytes32 :=
  keccak (nodeBytes left right)

theorem length_nodeBytes (left right : Bytes32) : (nodeBytes left right).length = 64 := by
  simp [nodeBytes]

theorem length_leafBytes (leaf : VerificationDataCommitment) : (leafBytes leaf).length = 116 := by
  simp [leafBytes]

theorem nodeBytes_injective {left right left' right' : Bytes32}
    (same : nodeBytes left right = nodeBytes left' right') : left = left' ∧ right = right' := by
  obtain ⟨sameLeft, sameRight⟩ := List.append_inj same (by simp)
  exact ⟨Vector.toList_inj.mp sameLeft, Vector.toList_inj.mp sameRight⟩

end VerificationCommitmentBatch

structure BatchInclusionData where
  batchMerkleRoot : Bytes32
  batchInclusionProof : List Bytes32
  indexInBatch : Nat
  userNonce : Nat
  deriving DecidableEq

/-- `BatchInclusionData::new`; it panics when there is no path. -/
def BatchInclusionData.new (crate : MerkleTreeCrate VerificationDataCommitment Bytes32)
    (verificationDataBatchIndex : Nat) (batch : List VerificationDataCommitment)
    (userNonce : Nat) : Option BatchInclusionData := do
  let root ← crate.build batch
  let batchInclusionProof ← crate.getProofByPos batch verificationDataBatchIndex
  return ⟨root, batchInclusionProof, verificationDataBatchIndex, userNonce⟩

def verifyProofInclusion (crate : MerkleTreeCrate VerificationDataCommitment Bytes32)
    (verificationDataCommitment : VerificationDataCommitment)
    (batchInclusionData : BatchInclusionData) : Bool :=
  crate.verify batchInclusionData.batchInclusionProof batchInclusionData.batchMerkleRoot
    batchInclusionData.indexInBatch verificationDataCommitment

/-- Every leaf of a batch has inclusion data, and a client accepts them for it. -/
theorem BatchInclusionData.new_eq_some {keccak : Bytes → Bytes32}
    {crate : MerkleTreeCrate VerificationDataCommitment Bytes32}
    (documented : crate.Documented (VerificationCommitmentBatch.hashData keccak)
      (VerificationCommitmentBatch.hashNewParent keccak))
    {batch : List VerificationDataCommitment} {index : Nat}
    {commitment : VerificationDataCommitment} (found : batch[index]? = some commitment)
    (userNonce : Nat) :
    ∃ path root, BatchInclusionData.new crate index batch userNonce =
        some ⟨root, path, index, userNonce⟩ ∧
      crate.build batch = some root ∧
      root = MerkleTree.climb (VerificationCommitmentBatch.hashNewParent keccak) path index
        (VerificationCommitmentBatch.hashData keccak commitment) ∧
      verifyProofInclusion crate commitment ⟨root, path, index, userNonce⟩ = true := by
  have foundLeaf : (batch.map (VerificationCommitmentBatch.hashData keccak))[index]? =
      some (VerificationCommitmentBatch.hashData keccak commitment) := by
    rw [List.getElem?_map, found]
    rfl
  have bound := (List.getElem?_eq_some_iff.mp found).1
  obtain ⟨path, pathFound, isRoot⟩ := @MerkleTree.root_eq_climb _
    (VerificationCommitmentBatch.hashNewParent keccak) _ _ _ foundLeaf
  have built := (documented.build batch).trans isRoot
  have proof := (documented.getProofByPos batch index bound).trans pathFound
  refine ⟨path, _, ?_, built, rfl, ?_⟩
  · simp [BatchInclusionData.new, built, proof]
  · exact (documented.verify _ _ _ _).mpr rfl

/-- The `merkle_proof` argument of `_is_proof_verified`. -/
def BatchInclusionData.merkleProof (data : BatchInclusionData) : Bytes :=
  data.batchInclusionProof.flatMap Vector.toList

end AlignedLayer
