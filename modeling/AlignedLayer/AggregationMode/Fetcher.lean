import AlignedLayer.Sdk.VerificationData
import AlignedLayer.Library.SortedRange

/-!
# The fetcher of the aggregation mode

`ProofsFetcher::fetch` collects the proofs of one proving system from the
batches logged since the block it stopped at before, up to a limit.
-/

namespace AlignedLayer

/-- A `NewBatchV3` log of the service manager. -/
structure NewBatchV3 where
  blockNumber : Nat
  logIndex : Nat
  batchMerkleRoot : Bytes32
  batchDataPointer : String
  deriving DecidableEq

inductive ZKVMEngine where
  | sp1
  | risc0
  deriving DecidableEq

/-! ## Proofs -/

inductive SP1Proof where
  | core (proof : Bytes)
  | compressed (proof : Bytes)
  | plonk (proof : Bytes)
  | groth16 (proof : Bytes)
  deriving DecidableEq

structure SP1ProofWithPublicValues where
  proof : SP1Proof
  publicValues : Bytes
  deriving DecidableEq

structure SP1ProofWithPubValuesAndElf where
  proofWithPubValues : SP1ProofWithPublicValues
  elf : Bytes
  vk : Bytes32
  deriving DecidableEq

inductive InnerReceipt where
  | composite (bytes : Bytes)
  | succinct (bytes : Bytes)
  | groth16 (bytes : Bytes)
  | fake (bytes : Bytes)
  deriving DecidableEq

structure Receipt where
  inner : InnerReceipt
  journal : Bytes
  deriving DecidableEq

structure Risc0ProofReceiptAndImageId where
  imageId : Bytes32
  receipt : Receipt
  deriving DecidableEq

inductive AlignedProof where
  | sp1 (proof : SP1ProofWithPubValuesAndElf)
  | risc0 (proof : Risc0ProofReceiptAndImageId)
  deriving DecidableEq

/-- What the fetcher calls of the two proving systems.  The setup of a program
that is no ELF file panics. -/
structure ProverClients where
  deserializeSP1 : Bytes → Option SP1ProofWithPublicValues
  setupSP1 : Bytes → Option Bytes32
  verifySP1 : SP1ProofWithPublicValues → Bytes32 → Bool
  deserializeRisc0 : Bytes → Option InnerReceipt
  verifyRisc0 : Receipt → Bytes32 → Bool

/-- Why there is nothing fetched. -/
inductive FetchFailure where
  | getBlockNumber
  | getLogs
  | panic
  deriving DecidableEq

namespace SP1ProofWithPubValuesAndElf

/-- `none` when the proof is not supported or not valid. -/
def new (clients : ProverClients) (proofWithPubValues : SP1ProofWithPublicValues)
    (elf : Bytes) : Except FetchFailure (Option SP1ProofWithPubValuesAndElf) :=
  match clients.setupSP1 elf with
  | none => .error .panic
  | some vk =>
      match proofWithPubValues.proof with
      | .compressed _ =>
          if clients.verifySP1 proofWithPubValues vk then
            .ok (some ⟨proofWithPubValues, elf, vk⟩)
          else
            .ok none
      | _ => .ok none

end SP1ProofWithPubValuesAndElf

namespace Risc0ProofReceiptAndImageId

def new (clients : ProverClients) (imageId : Bytes32) (receipt : Receipt) :
    Option Risc0ProofReceiptAndImageId :=
  match receipt.inner with
  | .composite _ | .succinct _ =>
      if clients.verifyRisc0 receipt imageId then some ⟨imageId, receipt⟩ else none
  | _ => none

end Risc0ProofReceiptAndImageId

/-- `copy_from_slice` into 32 bytes. -/
def Bytes32.ofSlice (bytes : Bytes) : Option Bytes32 :=
  if length : bytes.toArray.size = 32 then some ⟨bytes.toArray, length⟩ else none

theorem Bytes32.ofSlice_toList (word : Bytes32) : Bytes32.ofSlice word.toList = some word := by
  have length : word.toList.toArray.size = 32 := by simp
  rw [Bytes32.ofSlice, dif_pos length]
  simp [Vector.toList]

namespace ProofsFetcher

/-- The proof, if it is compatible with the engine and valid. -/
def compatible (clients : ProverClients) :
    ZKVMEngine → VerificationData → Except FetchFailure (Option AlignedProof)
  | .sp1, data =>
      if data.provingSystem ≠ .sp1 then
        .ok none
      else
        match data.vmProgramCode, clients.deserializeSP1 data.proof with
        | some elf, some proofWithPubValues =>
            (SP1ProofWithPubValuesAndElf.new clients proofWithPubValues elf).map
              (Option.map .sp1)
        | _, _ => .ok none
  | .risc0, data =>
      if data.provingSystem ≠ .risc0 then
        .ok none
      else
        match data.vmProgramCode with
        | none => .ok none
        | some code =>
            match Bytes32.ofSlice code with
            | none => .error .panic
            | some imageId =>
                match data.pubInput, clients.deserializeRisc0 data.proof with
                | some publicInputs, some inner =>
                    .ok ((Risc0ProofReceiptAndImageId.new clients imageId
                      ⟨inner, publicInputs⟩).map .risc0)
                | _, _ => .ok none

/-- The compatible proofs of a batch, in its order. -/
def proofsToAdd (clients : ProverClients) (engine : ZKVMEngine) :
    List VerificationData → Except FetchFailure (List AlignedProof)
  | [] => .ok []
  | data :: rest => do
      let proof ← compatible clients engine data
      let proofs ← proofsToAdd clients engine rest
      return proof.toList ++ proofs

/-- The loop over the logs: the proofs, each with the log of its batch, and
the new `last_aggregated_block`.  A batch that cannot be downloaded is skipped. -/
def collect (clients : ProverClients) (engine : ZKVMEngine) (limit currentBlock : Nat)
    (download : NewBatchV3 → Option (List VerificationData)) :
    List NewBatchV3 → List (NewBatchV3 × AlignedProof) →
      Except FetchFailure (List (NewBatchV3 × AlignedProof) × Nat)
  | [], proofs => .ok (proofs, currentBlock)
  | log :: logs, proofs =>
      match download log with
      | none => collect clients engine limit currentBlock download logs proofs
      | some data => do
          let toAdd ← proofsToAdd clients engine data
          if proofs.length + toAdd.length > limit then
            return (proofs, log.blockNumber)
          else
            collect clients engine limit currentBlock download logs
              (proofs ++ toAdd.map fun proof => (log, proof))

/-- The logs of an inclusive range of blocks. -/
def logsOf (fromBlock toBlock : Nat) (history : List NewBatchV3) : List NewBatchV3 :=
  history.filter fun log => fromBlock ≤ log.blockNumber ∧ log.blockNumber ≤ toBlock

/-- `fetch`, with the answers of the node and of the data service. -/
def fetch (clients : ProverClients) (engine : ZKVMEngine) (limit : Nat)
    (currentBlock : Option Nat) (logsAnswered : Bool)
    (download : NewBatchV3 → Option (List VerificationData)) (history : List NewBatchV3)
    (lastAggregatedBlock : Nat) :
    Except FetchFailure (List (NewBatchV3 × AlignedProof) × Nat) :=
  match currentBlock with
  | none => .error .getBlockNumber
  | some currentBlock =>
      if currentBlock < lastAggregatedBlock then
        .error .getBlockNumber
      else if logsAnswered then
        collect clients engine limit currentBlock download
          (logsOf lastAggregatedBlock currentBlock history) []
      else
        .error .getLogs

end ProofsFetcher

end AlignedLayer
