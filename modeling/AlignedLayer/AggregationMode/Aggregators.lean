import AlignedLayer.AggregationMode.Programs

/-!
# The aggregators on the host

`aggregate_proofs` splits the fetched proofs into chunks, runs the user-proofs
aggregator on every chunk and the chunk aggregator on the results.  The host
builds the tree over all proofs itself, and the SDK builds it from the
commitments in the blob.  The proving clients and the tree crate are
parameters.
-/

namespace AlignedLayer

/-- `chunks` of a slice: as many items as the size, and in the last chunk the
rest. -/
def chunks {Item : Type} (size : Nat) : List Item → List (List Item)
  | [] => []
  | first :: rest => (first :: rest.take (size - 1)) :: chunks size (rest.drop (size - 1))
termination_by items => items.length
decreasing_by
  rw [List.length_drop, List.length_cons]
  omega

inductive AggregationModeProvingSystem where
  | sp1
  | risc0
  deriving DecidableEq

def AggregationModeProvingSystem.asU16 : AggregationModeProvingSystem → UInt16
  | .sp1 => 1
  | .risc0 => 2

namespace AlignedProof

/-- The commitment of the host, `hash_vk_and_pub_inputs` for SP1 and
`hash_image_id_and_public_inputs` for RISC Zero. -/
def commitment (keccak : Bytes → Bytes32) : AlignedProof → Bytes32
  | .sp1 proof =>
      keccak (AggregationMode.u16Bytes AggregationModeProvingSystem.sp1.asU16 ++
        proof.vk.toList ++ proof.proofWithPubValues.publicValues)
  | .risc0 proof =>
      keccak (AggregationMode.u16Bytes AggregationModeProvingSystem.risc0.asU16 ++
        proof.imageId.toList ++ proof.receipt.journal)

def engine : AlignedProof → ZKVMEngine
  | .sp1 _ => .sp1
  | .risc0 _ => .risc0

/-- Whether the proof can be written to the input of the user-proofs
aggregator. -/
def supported : AlignedProof → Bool
  | .sp1 proof =>
      match proof.proofWithPubValues.proof with
      | .compressed _ => true
      | _ => false
  | .risc0 _ => true

end AlignedProof

/-- `compute_proofs_merkle_root`, with the root of the tree. -/
def computeProofsMerkleRoot (crate : MerkleTreeCrate AlignedProof Bytes32)
    (keccak : Bytes → Bytes32) (proofs : List AlignedProof) :
    Option (Bytes32 × List Bytes32) := do
  let merkleRoot ← crate.build proofs
  return (merkleRoot, proofs.map (AlignedProof.commitment keccak))

inductive ProofAggregationError where
  | unsupportedProof
  | prove (text : String)
  /-- The client ran a program that panicked. -/
  | programPanicked
  | publicInputsDeserialization
  | panic
  deriving DecidableEq

/-- What the host uses of the proving client of an engine. -/
structure ProvingClient where
  /-- `hash_u32` of a verifying key. -/
  hashU32 : Bytes32 → Vector UInt32 8
  userProofsProgramId : Bytes32
  chunkProgramId : Bytes32
  /-- Why there is no proof of a run that went through. -/
  failure : AggregationMode.ProgramOutput → Option String

namespace ProvingClient

/-- The client runs a program and proves what the run committed to. -/
def prove (client : ProvingClient) (programId : Bytes32) (run : Option Bytes) :
    Except ProofAggregationError AggregationMode.ProgramOutput :=
  match run with
  | none => .error .programPanicked
  | some committed =>
      match client.failure ⟨programId, committed⟩ with
      | some text => .error (.prove text)
      | none => .ok ⟨programId, committed⟩

/-- `SP1VkAndPubInputs` or `Risc0ImageIdAndPubInputs` of a proof. -/
def programOutput (client : ProvingClient) : AlignedProof → AggregationMode.ProgramOutput
  | .sp1 proof =>
      ⟨AggregationMode.wordBytes (client.hashU32 proof.vk), proof.proofWithPubValues.publicValues⟩
  | .risc0 proof => ⟨proof.imageId, proof.receipt.journal⟩

end ProvingClient

namespace ZKVMEngine

def system : ZKVMEngine → AggregationMode.ProvingSystem
  | .sp1 => AggregationMode.sp1
  | .risc0 => AggregationMode.risc0

section Aggregators

variable (engine : ZKVMEngine) (keccak : Bytes → Bytes32) (crates : AggregationMode.Crates)
  (client : ProvingClient) (verify : AggregationMode.ProgramOutput → Bool)

def runUserProofsAggregator (proofs : List AlignedProof) :
    Except ProofAggregationError AggregationMode.ProgramOutput :=
  if proofs.all AlignedProof.supported then
    client.prove client.userProofsProgramId
      (AggregationMode.userProofsAggregator crates engine.system verify
        (proofs.map client.programOutput))
  else
    .error .unsupportedProof

/-- The proofs of the chunks need no check, the client made them compressed. -/
def runChunkAggregator (proofs : List (AggregationMode.ProgramOutput × List Bytes32)) :
    Except ProofAggregationError AggregationMode.ProgramOutput :=
  client.prove client.chunkProgramId
    (AggregationMode.chunkAggregator crates engine.system verify proofs)

/-- The loop over the chunks. -/
def aggregateChunks : List (List AlignedProof) →
    Except ProofAggregationError (List (AggregationMode.ProgramOutput × List Bytes32))
  | [] => .ok []
  | chunk :: rest => do
      let leavesCommitment := chunk.map (AlignedProof.commitment keccak)
      let aggProof ← runUserProofsAggregator engine crates client verify chunk
      let aggProofs ← aggregateChunks rest
      return (aggProof, leavesCommitment) :: aggProofs

/-- How the root is read from what the last proof makes public. -/
def readMerkleRoot (publicInputs : Bytes) : Except ProofAggregationError Bytes32 :=
  match engine with
  | .sp1 =>
      match Bytes32.ofSlice (publicInputs.take 32) with
      | some merkleRoot => .ok merkleRoot
      | none => .error .panic
  | .risc0 =>
      match Bytes32.ofSlice publicInputs with
      | some merkleRoot => .ok merkleRoot
      | none => .error .publicInputsDeserialization

def aggregateProofs (proofs : List AlignedProof) (proofsPerChunk : UInt16) :
    Except ProofAggregationError (AggregationMode.ProgramOutput × Bytes32) :=
  let proofs := proofs.filter fun proof => proof.engine = engine
  if proofsPerChunk = 0 then .error .panic
  else do
    let aggProofs ← aggregateChunks engine keccak crates client verify
      (chunks proofsPerChunk.toNat proofs)
    let aggProof ← runChunkAggregator engine crates client verify aggProofs
    let merkleRoot ← readMerkleRoot engine aggProof.publicInputs
    return (aggProof, merkleRoot)

end Aggregators

end ZKVMEngine

/-! ## The SDK -/

inductive AggregationModeVerificationData where
  | sp1 (vk : Bytes32) (publicInputs : Bytes)
  | risc0 (imageId : Bytes32) (publicInputs : Bytes)
  deriving DecidableEq

inductive ProofStatus where
  | verified (merkleRoot : Bytes32) (merklePath : List Bytes32)
  | invalid
  | notFound
  deriving DecidableEq

namespace AggregationModeVerificationData

def programId : AggregationModeVerificationData → Bytes32
  | .sp1 vk _ => vk
  | .risc0 imageId _ => imageId

def publicInputs : AggregationModeVerificationData → Bytes
  | .sp1 _ publicInputs => publicInputs
  | .risc0 _ publicInputs => publicInputs

def provingSystemId : AggregationModeVerificationData → UInt16
  | .sp1 _ _ => AggregationModeProvingSystem.sp1.asU16
  | .risc0 _ _ => AggregationModeProvingSystem.risc0.asU16

def commitment (keccak : Bytes → Bytes32) (data : AggregationModeVerificationData) : Bytes32 :=
  keccak (AggregationMode.u16Bytes data.provingSystemId ++ data.programId.toList ++
    data.publicInputs)

/-- `check_proof_verification`, on the root of each event and the commitments
of its blob. -/
def checkProofVerification (keccak : Bytes → Bytes32) (hashes : MerkleTreeCrate Bytes32 Bytes32)
    (verificationData : AggregationModeVerificationData) :
    List (Bytes32 × List Bytes32) → ProofStatus
  | [] => .notFound
  | (merkleRoot, leaves) :: logs =>
      let proofCommitment := verificationData.commitment keccak
      match leaves.findIdx? fun leaf => leaf = proofCommitment with
      | none => verificationData.checkProofVerification keccak hashes logs
      | some position =>
          match hashes.build leaves, hashes.getProofByPos leaves position with
          | some _, some merklePath =>
              if hashes.verify merklePath merkleRoot position proofCommitment then
                .verified merkleRoot merklePath
              else
                .invalid
          | _, _ => verificationData.checkProofVerification keccak hashes logs

end AggregationModeVerificationData

/-- What the owner of a proof gives to the SDK. -/
def AlignedProof.verificationData : AlignedProof → AggregationModeVerificationData
  | .sp1 proof => .sp1 proof.vk proof.proofWithPubValues.publicValues
  | .risc0 proof => .risc0 proof.imageId proof.receipt.journal

end AlignedLayer
