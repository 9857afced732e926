import AlignedLayer.AggregationMode.Programs

/-!
# The aggregation contract

`AlignedProofAggregationService` stores the roots of verified aggregations.
The zkVM verifier contracts and the imported Merkle proof library are
parameters.
-/

namespace AlignedLayer

namespace AlignedProofAggregationService

structure State where
  aggregatedProofs : Bytes32 → Bool
  sp1VerifierAddress : Address
  alignedAggregatorAddress : Address
  risc0VerifierAddress : Address
  risc0AggregatorProgramImageId : Bytes32
  sp1AggregatorProgramVKHash : Bytes32

inductive Failure where
  | onlyAlignedAggregator (sender : Address)
  | abiDecoding
  | verifierReverted
  deriving DecidableEq

/-- Which calls of the verifier contracts do not revert. -/
structure Verifiers where
  sp1VerifyProof : Address → Bytes32 → Bytes → Bytes → Bool
  risc0Verify : Address → Bytes → Bytes32 → Bytes32 → Bool
  sha256 : Bytes → Bytes32

/-- `abi.decode(data, (bytes32))` ignores what follows the word. -/
def decodeBytes32 (data : Bytes) : Except Failure Bytes32 :=
  match Bytes32.ofSlice (data.take 32) with
  | some word => .ok word
  | none => .error .abiDecoding

def State.store (merkleRoot : Bytes32) (state : State) : State :=
  { state with aggregatedProofs := Function.update state.aggregatedProofs merkleRoot true }

def verifySP1 (verifiers : Verifiers) (sender : Address) (sp1PublicValues sp1ProofBytes : Bytes)
    (state : State) : Except Failure State :=
  if sender ≠ state.alignedAggregatorAddress then
    .error (.onlyAlignedAggregator sender)
  else
    match decodeBytes32 sp1PublicValues with
    | .error failure => .error failure
    | .ok merkleRoot =>
        if verifiers.sp1VerifyProof state.sp1VerifierAddress state.sp1AggregatorProgramVKHash
            sp1PublicValues sp1ProofBytes then
          .ok (state.store merkleRoot)
        else
          .error .verifierReverted

def verifyRisc0 (verifiers : Verifiers) (sender : Address)
    (risc0ReceiptSeal risc0JournalBytes : Bytes) (state : State) : Except Failure State :=
  if sender ≠ state.alignedAggregatorAddress then
    .error (.onlyAlignedAggregator sender)
  else
    match decodeBytes32 risc0JournalBytes with
    | .error failure => .error failure
    | .ok merkleRoot =>
        if verifiers.risc0Verify state.risc0VerifierAddress risc0ReceiptSeal
            state.risc0AggregatorProgramImageId (verifiers.sha256 risc0JournalBytes) then
          .ok (state.store merkleRoot)
        else
          .error .verifierReverted

def verifyProofInclusion (keccak : Bytes → Bytes32)
    (processProofCalldata : List Bytes32 → Bytes32 → Bytes32) (merklePath : List Bytes32)
    (provingSystemId : UInt16) (programId : Bytes32) (publicInputs : Bytes) (state : State) :
    Bool :=
  let proofCommitment := AggregationMode.commitment keccak provingSystemId ⟨programId, publicInputs⟩
  let merkleRoot := processProofCalldata merklePath proofCommitment
  state.aggregatedProofs merkleRoot

/-- The library hashes the siblings in their order, the smaller node first. -/
def ProcessesSortedPairs (keccak : Bytes → Bytes32)
    (processProofCalldata : List Bytes32 → Bytes32 → Bytes32) : Prop :=
  ∀ path leaf, processProofCalldata path leaf =
    path.foldl (AggregationMode.hashNewParent keccak) leaf

inductive Call where
  | verifySP1 (sender : Address) (sp1PublicValues sp1ProofBytes : Bytes)
  | verifyRisc0 (sender : Address) (risc0ReceiptSeal risc0JournalBytes : Bytes)

def execute (verifiers : Verifiers) (state : State) : Call → Except Failure State
  | .verifySP1 sender values proof => verifySP1 verifiers sender values proof state
  | .verifyRisc0 sender receipt journal => verifyRisc0 verifiers sender receipt journal state

/-- The state after transactions of which some may have been reverted. -/
def run (verifiers : Verifiers) (state : State) (calls : List Call) : State :=
  calls.foldl (fun state call =>
    match execute verifiers state call with
    | .ok next => next
    | .error _ => state) state

/-- The public output that the verifier of the deployed contract accepted. -/
def Accepted (verifiers : Verifiers) (deployed : State) (system : AggregationMode.ProvingSystem)
    (output : Bytes) : Prop :=
  (system = AggregationMode.sp1 ∧ ∃ proof, verifiers.sp1VerifyProof deployed.sp1VerifierAddress
      deployed.sp1AggregatorProgramVKHash output proof = true) ∨
    system = AggregationMode.risc0 ∧ ∃ receipt, verifiers.risc0Verify
      deployed.risc0VerifierAddress receipt deployed.risc0AggregatorProgramImageId
        (verifiers.sha256 output) = true

variable {verifiers : Verifiers} {deployed state next : State}

/-- A call stores at most the first word of an accepted output. -/
theorem execute_cases {call : Call} (executed : execute verifiers state call = .ok next) :
    ∃ system output root, Accepted verifiers state system output ∧
      decodeBytes32 output = .ok root ∧ next = state.store root := by
  cases call with
  | verifySP1 sender values proof =>
      simp only [execute, verifySP1] at executed
      split at executed
      · cases executed
      · split at executed
        · cases executed
        · rename_i root decoded
          split at executed
          · rename_i accepted
            cases executed
            exact ⟨_, values, root, .inl ⟨rfl, proof, accepted⟩, decoded, rfl⟩
          · cases executed
  | verifyRisc0 sender receipt journal =>
      simp only [execute, verifyRisc0] at executed
      split at executed
      · cases executed
      · split at executed
        · cases executed
        · rename_i root decoded
          split at executed
          · rename_i accepted
            cases executed
            exact ⟨_, journal, root, .inr ⟨rfl, receipt, accepted⟩, decoded, rfl⟩
          · cases executed

/-- What stays as deployed, and where every stored root comes from. -/
structure StoresAccepted (verifiers : Verifiers) (deployed state : State) : Prop where
  accepts : ∀ system output, Accepted verifiers state system output →
    Accepted verifiers deployed system output
  stored : ∀ root, state.aggregatedProofs root = true → ∃ system output,
    Accepted verifiers deployed system output ∧ decodeBytes32 output = .ok root

theorem storesAccepted_run (fresh : ∀ root, deployed.aggregatedProofs root = false)
    (calls : List Call) : StoresAccepted verifiers deployed (run verifiers deployed calls) := by
  suffices keeps : ∀ state, StoresAccepted verifiers deployed state →
      StoresAccepted verifiers deployed (run verifiers state calls) by
    apply keeps
    refine ⟨fun system output accepted => accepted, ?_⟩
    intro root stored
    rw [fresh root] at stored
    cases stored
  induction calls with
  | nil => exact fun state stores => stores
  | cons call calls induction =>
      intro state stores
      rw [run, List.foldl_cons, ← run]
      apply induction
      cases executed : execute verifiers state call with
      | error failure => exact stores
      | ok next =>
          obtain ⟨system, output, root, accepted, decoded, rfl⟩ := execute_cases executed
          refine ⟨stores.accepts, ?_⟩
          intro other stored
          by_cases same : other = root
          · exact ⟨system, output, stores.accepts system output accepted, same ▸ decoded⟩
          · apply stores.stored other
            simpa [State.store, same] using stored

end AlignedProofAggregationService

end AlignedLayer
