import AlignedLayer.Contracts.TaskHistory
import AlignedLayer.Library.Quorums
import AlignedLayer.Operator.ProofWorkers

/-!
# Operators and the service manager

An operator that runs the code signs the identifier of a batch after it has
verified the proofs of the batch.  The others sign what they like.  The
service manager counts the stake of those who have signed.
-/

namespace AlignedLayer.Operator

open AlignedLayerServiceManager

/-- What an operator reads of a log. -/
structure NewBatchV3 where
  batchMerkleRoot : Bytes32
  senderAddress : Address
  deriving DecidableEq

/-- What the outside does while a log is processed: the answers of the data
service, whether the contract answers, and the schedule of the goroutines. -/
structure Processing where
  answers : List (Option Bytes)
  bitmapRead : Bool
  numCPU : Nat
  schedule : List Goroutine

section

variable (formats : Formats) (keccak : Bytes → Bytes32)
  (crate : MerkleTreeCrate VerificationDataCommitment Bytes32) (verifier : VerifierCall → Bool)

/-- Whether the function returns nil, once it returns. -/
def processNewBatchLogV3 (newBatchLog : NewBatchV3) (disabledVerifiersBitmap : Nat)
    (processing : Processing) : Option Bool :=
  let downloaded := getBatchFromDataServiceWithMultipleURLs formats keccak crate
    processing.answers newBatchLog.batchMerkleRoot
  let bitmap := if processing.bitmapRead then some disabledVerifiersBitmap else none
  match (WorkerPool.machine verifier disabledVerifiersBitmap (downloaded.getD [])).run
      (WorkerPool.start processing.numCPU downloaded bitmap) processing.schedule with
  | none => none
  | some pool =>
      match pool.phase with
      | .returned succeeded => some succeeded
      | _ => none

/-- The hash that is signed. -/
def handleNewBatchLogV3 (newBatchLog : NewBatchV3) (disabledVerifiersBitmap : Nat)
    (processing : Processing) : Option Bytes32 :=
  match processNewBatchLogV3 formats keccak crate verifier newBatchLog disabledVerifiersBitmap
      processing with
  | some true =>
      some (batchIdentifier keccak newBatchLog.batchMerkleRoot newBatchLog.senderAddress)
  | _ => none

end

/-- The contract, and the signatures that were made. -/
structure Network (Id : Type) where
  contract : Contract
  signatures : List (Id × Bytes32)

namespace Network

inductive Label (Id : Type) where
  | transaction (call : Call)
  | handleNewBatchLogV3 (operator : Id) (newBatchLog : NewBatchV3) (processing : Processing)
  /-- An operator signs without the code. -/
  | forge (operator : Id) (batchIdentifierHash : Bytes32)

variable {Id : Type}

/-- The calls among the labels. -/
def Label.call : Label Id → Option Call
  | .transaction call => some call
  | _ => none

variable (formats : Formats) (keccak : Bytes → Bytes32)
  (crate : MerkleTreeCrate VerificationDataCommitment Bytes32) (verifier : VerifierCall → Bool)

def sign (operator : Id) (batchIdentifierHash : Bytes32) (network : Network Id) : Network Id :=
  { network with signatures := network.signatures ++ [(operator, batchIdentifierHash)] }

def step (network : Network Id) : Label Id → Option (Network Id)
  | .transaction call => some { network with contract := network.contract.transact keccak call }
  | .handleNewBatchLogV3 operator newBatchLog processing =>
      match Operator.handleNewBatchLogV3 formats keccak crate verifier newBatchLog
          network.contract.disabledVerifiers processing with
      | some batchIdentifierHash => some (network.sign operator batchIdentifierHash)
      | none => some network
  | .forge operator batchIdentifierHash => some (network.sign operator batchIdentifierHash)

def machine : Machine (Network Id) (Label Id) where
  step := step formats keccak crate verifier

def deploy (contract : Contract) : Network Id where
  contract := contract
  signatures := []

/-! ## Who signs, and what is counted -/

/-- Only faulty operators sign without the code. -/
def RunsCode (faulty : Finset Id) (_ : Network Id) : Label Id → Prop
  | .forge operator _ => operator ∈ faulty
  | _ => True

/-- The stakes of the operators at a block. -/
def quorums (operators : Finset Id) (stake : Nat → Id → Nat) (block : Nat) : Quorums Id where
  members := operators
  weight := stake block
  numerator := quorumThresholdPercentage
  denominator := thresholdDenominator

/-- `checkSignatures` reverts unless the counted operators have signed. -/
def CountsSignatures (operators : Finset Id) (stake : Nat → Id → Nat) (network : Network Id) :
    Label Id → Prop
  | .transaction (.respondToTaskV2 _ _ checkSignatures _ _) =>
      ∀ hash block totals, checkSignatures hash block = .ok totals →
        ∃ signers ⊆ operators, (∀ operator ∈ signers, (operator, hash) ∈ network.signatures) ∧
          totals.signedStakeForQuorum[0]? = some ((quorums operators stake block).total signers) ∧
          totals.totalStakeForQuorum[0]? = some ((quorums operators stake block).total operators)
  | _ => True

end Network

end AlignedLayer.Operator
