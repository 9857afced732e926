import AlignedLayer.AggregationMode.Blob
import AlignedLayer.Contracts.AlignedProofAggregationService
import AlignedLayer.Library.Except
import AlignedLayer.Library.Machine

/-!
# From an event to the blob behind it

The SDK follows every event of the aggregation contract to the beacon block of
its transaction, and picks the blob of the versioned hash among those of the
slot.  The nodes are parameters; those of a chain answer what the chain holds,
but they forget the blobs of old slots.
-/

namespace AlignedLayer

/-! ## The SDK -/

structure AggregatedProofVerified where
  merkleRoot : Bytes32
  blobVersionedHash : Bytes32
  blockNumber : Option Nat
  deriving DecidableEq

structure BeaconBlock where
  slot : Nat
  parentRoot : Bytes32
  deriving DecidableEq

structure BlobData where
  blob : Bytes
  kzgCommitment : Bytes
  deriving DecidableEq

inductive ProofVerificationAggModeError where
  | ethereumProviderError
  | eventDecoding
  | beaconClient
  deriving DecidableEq

/-- The answers of an execution node and a beacon node; `none` is an error. -/
structure Nodes where
  blockNumber : Option Nat
  logs : Nat → Option (List AggregatedProofVerified)
  /-- Of a block, unless the block or the field is missing. -/
  parentBeaconBlockRoot : Nat → Option (Option Bytes32)
  headers : Bytes32 → Option (List BeaconBlock)
  blobSidecars : Nat → Option (List BlobData)

def fromBlocksAgoDefault : Nat := 7500

def kzgVersionedHash : UInt8 := 1

/-- The answer, or the error for a failed request. -/
def answered {Answer : Type} (error : ProofVerificationAggModeError) :
    Option Answer → Except ProofVerificationAggModeError Answer
  | none => .error error
  | some answer => .ok answer

def versionedHash (sha256 : Bytes → Bytes32) (kzgCommitment : Bytes) : Bytes32 :=
  (sha256 kzgCommitment).setIfInBounds 0 kzgVersionedHash

namespace Nodes

def getBlockHeaderFromParentHash (parentBlockHash : Bytes32) (nodes : Nodes) :
    Except ProofVerificationAggModeError (Option BeaconBlock) := do
  let blocks ← answered .beaconClient (nodes.headers parentBlockHash)
  return blocks.find? fun block => block.parentRoot = parentBlockHash

def getBlobByVersionedHash (sha256 : Bytes → Bytes32) (slot : Nat) (blobVersionedHash : Bytes32)
    (nodes : Nodes) : Except ProofVerificationAggModeError (Option BlobData) := do
  let blobs ← answered .beaconClient (nodes.blobSidecars slot)
  return blobs.find? fun blob => versionedHash sha256 blob.kzgCommitment = blobVersionedHash

/-- The first block that is asked for, by default about a day ago. -/
def startBlock (fromBlock : Option Nat) (nodes : Nodes) :
    Except ProofVerificationAggModeError Nat :=
  match fromBlock with
  | some fromBlock => .ok fromBlock
  | none => do
      let blockNumber ← answered .ethereumProviderError nodes.blockNumber
      return blockNumber - fromBlocksAgoDefault

def fetchVerifiedProofsEvents (fromBlock : Option Nat) (nodes : Nodes) :
    Except ProofVerificationAggModeError (List AggregatedProofVerified) := do
  let fromBlock ← nodes.startBlock fromBlock
  answered .ethereumProviderError (nodes.logs fromBlock)

def getBlobDataFromVerifiedProofEvent (sha256 : Bytes → Bytes32) (log : AggregatedProofVerified)
    (nodes : Nodes) : Except ProofVerificationAggModeError (Bytes32 × List Bytes32) := do
  let blockNumber ← answered .eventDecoding log.blockNumber
  let parentRoot ← answered .ethereumProviderError (nodes.parentBeaconBlockRoot blockNumber)
  let beaconParentRoot ← answered .eventDecoding parentRoot
  let header ← nodes.getBlockHeaderFromParentHash beaconParentRoot
  let beaconBlock ← answered .eventDecoding header
  let blob ← nodes.getBlobByVersionedHash sha256 beaconBlock.slot log.blobVersionedHash
  let blobData ← answered .eventDecoding blob
  return (log.merkleRoot, decodedBlob blobData.blob)

/-- The loop of `check_proof_verification`. -/
def checkLogs (keccak sha256 : Bytes → Bytes32) (hashes : MerkleTreeCrate Bytes32 Bytes32)
    (verificationData : AggregationModeVerificationData) (nodes : Nodes) :
    List AggregatedProofVerified → Except ProofVerificationAggModeError ProofStatus
  | [] => .ok .notFound
  | log :: logs =>
      match nodes.getBlobDataFromVerifiedProofEvent sha256 log with
      | .error error => .error error
      | .ok (merkleRoot, leaves) =>
          let proofCommitment := verificationData.commitment keccak
          match leaves.findIdx? fun leaf => leaf = proofCommitment with
          | none => nodes.checkLogs keccak sha256 hashes verificationData logs
          | some position =>
              match hashes.build leaves, hashes.getProofByPos leaves position with
              | some _, some merklePath =>
                  if hashes.verify merklePath merkleRoot position proofCommitment then
                    .ok (.verified merkleRoot merklePath)
                  else
                    .ok .invalid
              | _, _ => nodes.checkLogs keccak sha256 hashes verificationData logs

def checkProofVerification (keccak sha256 : Bytes → Bytes32)
    (hashes : MerkleTreeCrate Bytes32 Bytes32)
    (verificationData : AggregationModeVerificationData) (fromBlock : Option Nat)
    (nodes : Nodes) : Except ProofVerificationAggModeError ProofStatus := do
  let logs ← nodes.fetchVerifiedProofsEvents fromBlock
  nodes.checkLogs keccak sha256 hashes verificationData logs

end Nodes

/-! ## The chain -/

/-- What the verifiers' public output starts with. -/
def AlignedProofAggregationService.Call.merkleRoot :
    AlignedProofAggregationService.Call → Except AlignedProofAggregationService.Failure Bytes32
  | .verifySP1 _ sp1PublicValues _ => AlignedProofAggregationService.decodeBytes32 sp1PublicValues
  | .verifyRisc0 _ _ risc0JournalBytes =>
      AlignedProofAggregationService.decodeBytes32 risc0JournalBytes

namespace BlobChain

/-- A transaction with a blob: of the aggregation service, with the leaves the
blob is constructed of, or of somebody else. -/
inductive Transaction where
  | aggregation (leaves : List Bytes32) (call : AlignedProofAggregationService.Call)
  | other (blob : Bytes)

/-- A beacon block with its execution block.  `verified` are the roots and the
leaves of the aggregations the contract has accepted in it. -/
structure Block where
  number : Nat
  slot : Nat
  parentRoot : Bytes32
  blobs : List Bytes
  verified : List (Bytes32 × List Bytes32)

structure State where
  contract : AlignedProofAggregationService.State
  blocks : List Block

/-- A block with its transactions. -/
structure Label where
  slot : Nat
  parentRoot : Bytes32
  transactions : List Transaction

section

variable (verifiers : AlignedProofAggregationService.Verifiers) (kzg : Bytes → Bytes)

/-- The service does not send anything if the blob overflows. -/
def execute (transaction : Transaction)
    (state : AlignedProofAggregationService.State × List Bytes × List (Bytes32 × List Bytes32)) :
    AlignedProofAggregationService.State × List Bytes × List (Bytes32 × List Bytes32) :=
  match transaction with
  | .other blob => (state.1, state.2.1 ++ [blob], state.2.2)
  | .aggregation leaves call =>
      match constructBlob leaves with
      | none => state
      | some blob =>
          match AlignedProofAggregationService.execute verifiers state.1 call, call.merkleRoot with
          | .ok next, .ok merkleRoot =>
              (next, state.2.1 ++ [blob], state.2.2 ++ [(merkleRoot, leaves)])
          | _, _ => (state.1, state.2.1 ++ [blob], state.2.2)

/-- Slots rise, and every beacon block has its own parent. -/
def step (state : State) (label : Label) : Option State :=
  if state.blocks.all fun block =>
      block.slot < label.slot && block.parentRoot ≠ label.parentRoot then
    let (contract, blobs, verified) :=
      label.transactions.foldl (fun state transaction => execute verifiers transaction state)
        (state.contract, [], [])
    some
      { contract := contract
        blocks := state.blocks ++
          [⟨state.blocks.length + 1, label.slot, label.parentRoot, blobs, verified⟩] }
  else
    none

def machine : Machine State Label where
  step := step verifiers

def deploy (contract : AlignedProofAggregationService.State) : State where
  contract := contract
  blocks := []

namespace Block

def sidecars (block : Block) : List BlobData :=
  block.blobs.map fun blob => ⟨blob, kzg blob⟩

/-- The event of a transaction carries the versioned hash of its blob. -/
def logs (sha256 : Bytes → Bytes32) (block : Block) : List AggregatedProofVerified :=
  block.verified.filterMap fun aggregation =>
    (constructBlob aggregation.2).map fun blob =>
      ⟨aggregation.1, versionedHash sha256 (kzg blob), some block.number⟩

end Block

namespace State

/-- The aggregations accepted from a block on. -/
def aggregations (fromBlock : Nat) (state : State) : List (Bytes32 × List Bytes32) :=
  (state.blocks.filter fun block => fromBlock ≤ block.number).flatMap Block.verified

/-- Nodes that answer every request, and keep blobs from a slot on. -/
def nodes (sha256 : Bytes → Bytes32) (oldest : Nat) (state : State) : Nodes where
  blockNumber := some state.blocks.length
  logs fromBlock := some ((state.blocks.filter fun block => fromBlock ≤ block.number).flatMap
    (Block.logs kzg sha256))
  parentBeaconBlockRoot number :=
    some ((state.blocks.find? fun block => block.number = number).map Block.parentRoot)
  headers parentRoot := some ((state.blocks.filter fun block => block.parentRoot = parentRoot).map
    fun block => ⟨block.slot, block.parentRoot⟩)
  blobSidecars slot :=
    if oldest ≤ slot then
      some ((state.blocks.filter fun block => block.slot = slot).flatMap (Block.sidecars kzg))
    else
      none

end State

end

end BlobChain

end AlignedLayer
