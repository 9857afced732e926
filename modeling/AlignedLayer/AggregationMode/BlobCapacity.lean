import AlignedLayer.AggregationMode.Blob
import AlignedLayer.Library.Except

/-!
# A run and the capacity of a blob

The number of leaves is bounded by the limit of the configuration only, and
the blob is built after the proofs have been aggregated.
-/

namespace AlignedLayer

/-- What a run reads of `Config`. -/
structure AggregationMode.Config where
  proofsPerChunk : UInt16
  totalProofsLimit : UInt16
  deriving DecidableEq

inductive AggregatedProofSubmissionError where
  | fetchingProofs (failure : FetchFailure)
  | buildingMerkleRoot
  | zkvmAggregation (error : ProofAggregationError)
  | merkleRootMisMatch
  /-- An index of `construct_blob` behind the end of the blob. -/
  | blobPanic
  /-- The commitment to the blob, or the transaction. -/
  | submitting (text : String)
  deriving DecidableEq

section

variable (clients : ProverClients) (engine : ZKVMEngine) (keccak : Bytes → Bytes32)
  (crates : AggregationMode.Crates) (proofsCrate : MerkleTreeCrate AlignedProof Bytes32)
  (client : ProvingClient) (verify : AggregationMode.ProgramOutput → Bool)
  (submit : Bytes → AggregationMode.ProgramOutput → Option String)

/-- `aggregate_and_submit_proofs_on_chain`, after the fetch.  `submit` is what
becomes of the blob and the proof. -/
def aggregateAndSubmitProofsOnChain (proofsPerChunk : UInt16)
    (fetched : Except FetchFailure (List (NewBatchV3 × AlignedProof) × Nat)) :
    Except AggregatedProofSubmissionError Unit :=
  match fetched with
  | .error failure => .error (.fetchingProofs failure)
  | .ok (logged, _) =>
      let proofs := logged.map Prod.snd
      if proofs.isEmpty then
        .ok ()
      else
        match computeProofsMerkleRoot proofsCrate keccak proofs with
        | none => .error .buildingMerkleRoot
        | some (merkleRoot, leaves) =>
            match engine.aggregateProofs keccak crates client verify proofs proofsPerChunk with
            | .error error => .error (.zkvmAggregation error)
            | .ok (aggregatedProof, zkvmMerkleRoot) =>
                if zkvmMerkleRoot ≠ merkleRoot then
                  .error .merkleRootMisMatch
                else
                  match constructBlob leaves with
                  | none => .error .blobPanic
                  | some blobData =>
                      match submit blobData aggregatedProof with
                      | some text => .error (.submitting text)
                      | none => .ok ()

/-- The run of a configuration. -/
def AggregationMode.Config.run (config : AggregationMode.Config)
    (contents : NewBatchV3 → List VerificationData) (answers : AggregatorRun)
    (state : Aggregation) : Except AggregatedProofSubmissionError Unit :=
  aggregateAndSubmitProofsOnChain engine keccak crates proofsCrate client verify submit
    config.proofsPerChunk
    (state.fetch clients engine contents
      { answers with limit := config.totalProofsLimit.toNat })

end

/-! ## How much is written -/

theorem copyFromSlice_length {bytes chunk written : Bytes} {start : Nat}
    (copied : copyFromSlice bytes start chunk = some written) :
    start + chunk.length ≤ bytes.length ∧ written.length = bytes.length := by
  rw [copyFromSlice] at copied
  split at copied
  · rename_i inside
    cases copied
    refine ⟨inside, ?_⟩
    rw [List.length_append, List.length_append, List.length_take, List.length_drop]
    omega
  · cases copied

/-- Every chunk has its first byte inside the blob. -/
theorem writeChunks_length {chunked : List Bytes} {offset : Nat} {blobData written : Bytes}
    (wrote : writeChunks offset blobData chunked = some written) (nonempty : chunked ≠ []) :
    offset + 32 * chunked.length ≤ blobData.length + 31 := by
  induction chunked generalizing offset blobData with
  | nil => exact absurd rfl nonempty
  | cons chunk rest ih =>
      rw [writeChunks] at wrote
      obtain ⟨padded, first, wrote⟩ := Option.bind_eq_some_iff.mp wrote
      obtain ⟨copied, second, wrote⟩ := Option.bind_eq_some_iff.mp wrote
      obtain ⟨inside, paddedLength⟩ := copyFromSlice_length first
      obtain ⟨-, copiedLength⟩ := copyFromSlice_length second
      rw [List.length_singleton] at inside
      rw [List.length_cons]
      cases rest with
      | nil =>
          rw [List.length_nil]
          omega
      | cons next later =>
          have others := ih wrote (List.cons_ne_nil next later)
          rw [copiedLength, paddedLength] at others
          omega

theorem le_length_chunks {size : Nat} (data : Bytes) (positive : 0 < size) :
    data.length ≤ size * (chunks size data).length := by
  induction data using chunks.induct size with
  | case1 => exact Nat.zero_le _
  | case2 first rest ih =>
      rw [List.length_drop] at ih
      rw [chunks, List.length_cons, List.length_cons, Nat.mul_succ]
      omega

/-- More leaves than fit into the blob are an index behind its end. -/
theorem constructBlob_eq_none {leaves : List Bytes32} (many : 3968 < leaves.length) :
    constructBlob leaves = none := by
  have enough := le_length_chunks (leaves.flatMap fun leaf => leaf.toList) (by decide : 0 < 31)
  rw [length_flatMap_leaves] at enough
  have nonempty : chunks 31 (leaves.flatMap fun leaf => leaf.toList) ≠ [] := by
    intro empty
    rw [empty, List.length_nil] at enough
    omega
  by_contra fits
  obtain ⟨written, wrote⟩ := Option.ne_none_iff_exists'.mp fits
  have bounded := writeChunks_length wrote nonempty
  rw [List.length_replicate, bytesPerBlob] at bounded
  omega

/-! ## How much is fetched -/

theorem length_of_collect {clients : ProverClients} {engine : ZKVMEngine}
    {limit currentBlock : Nat} {download : NewBatchV3 → Option (List VerificationData)}
    {logs : List NewBatchV3} {proofs result : List (NewBatchV3 × AlignedProof)} {stop : Nat}
    (room : proofs.length ≤ limit)
    (collected : ProofsFetcher.collect clients engine limit currentBlock download logs proofs =
      .ok (result, stop)) : result.length ≤ limit := by
  induction logs generalizing proofs with
  | nil =>
      cases collected
      exact room
  | cons log logs ih =>
      rw [ProofsFetcher.collect] at collected
      split at collected
      · exact ih room collected
      · rename_i data downloaded
        cases added : ProofsFetcher.proofsToAdd clients engine data with
        | error failure =>
            rw [added] at collected
            cases collected
        | ok toAdd =>
            rw [added] at collected
            change (if proofs.length + toAdd.length > limit then _ else _) = _ at collected
            split at collected
            · cases collected
              exact room
            · rename_i fits
              apply ih _ collected
              rw [List.length_append, List.length_map]
              exact Nat.le_of_not_lt fits

theorem length_of_fetch {clients : ProverClients} {engine : ZKVMEngine}
    {contents : NewBatchV3 → List VerificationData} {run : AggregatorRun} {state : Aggregation}
    {proofs : List (NewBatchV3 × AlignedProof)} {stop : Nat}
    (fetched : state.fetch clients engine contents run = .ok (proofs, stop)) :
    proofs.length ≤ run.limit := by
  unfold Aggregation.fetch ProofsFetcher.fetch at fetched
  split at fetched
  · cases fetched
  · split at fetched
    · cases fetched
    · split at fetched
      · exact length_of_collect (Nat.zero_le _) fetched
      · cases fetched

/-! ## The run -/

theorem leaves_of_computeProofsMerkleRoot {proofsCrate : MerkleTreeCrate AlignedProof Bytes32}
    {keccak : Bytes → Bytes32} {proofs : List AlignedProof} {root : Bytes32}
    {leaves : List Bytes32}
    (computed : computeProofsMerkleRoot proofsCrate keccak proofs = some (root, leaves)) :
    leaves = proofs.map (AlignedProof.commitment keccak) := by
  obtain ⟨built, -, same⟩ := Option.bind_eq_some_iff.mp computed
  cases same
  rfl

/-- After the aggregation a run panics only where the blob is built. -/
theorem constructBlob_of_blobPanic {engine : ZKVMEngine} {keccak : Bytes → Bytes32}
    {crates : AggregationMode.Crates} {proofsCrate : MerkleTreeCrate AlignedProof Bytes32}
    {client : ProvingClient} {verify : AggregationMode.ProgramOutput → Bool}
    {submit : Bytes → AggregationMode.ProgramOutput → Option String} {proofsPerChunk : UInt16}
    {fetched : Except FetchFailure (List (NewBatchV3 × AlignedProof) × Nat)}
    (panicked : aggregateAndSubmitProofsOnChain engine keccak crates proofsCrate client verify
      submit proofsPerChunk fetched = .error .blobPanic) :
    ∃ proofs stop, fetched = .ok (proofs, stop) ∧
      constructBlob (proofs.map fun proof => proof.2.commitment keccak) = none := by
  unfold aggregateAndSubmitProofsOnChain at panicked
  split at panicked
  · cases panicked
  · rename_i proofs stop
    refine ⟨proofs, stop, rfl, ?_⟩
    dsimp only at panicked
    split at panicked
    · cases panicked
    · split at panicked
      · cases panicked
      · rename_i merkleRoot leaves computed
        have same := leaves_of_computeProofsMerkleRoot computed
        rw [List.map_map] at same
        split at panicked
        · cases panicked
        · split at panicked
          · cases panicked
          · split at panicked
            · rename_i overflows
              rw [same] at overflows
              exact overflows
            · split at panicked
              · cases panicked
              · cases panicked

/-- For every configuration with a limit of at most 3968 proofs, every chain
and every answer, the leaves fit and the blob is built. -/
theorem blob_capacity_respected (clients : ProverClients) (engine : ZKVMEngine)
    (keccak : Bytes → Bytes32) (crates : AggregationMode.Crates)
    (proofsCrate : MerkleTreeCrate AlignedProof Bytes32) (client : ProvingClient)
    (verify : AggregationMode.ProgramOutput → Bool)
    (submit : Bytes → AggregationMode.ProgramOutput → Option String)
    (contents : NewBatchV3 → List VerificationData) (config : AggregationMode.Config)
    (bounded : config.totalProofsLimit.toNat ≤ 3968) (answers : AggregatorRun)
    (state : Aggregation) :
    (∀ proofs stop, state.fetch clients engine contents
        { answers with limit := config.totalProofsLimit.toNat } = .ok (proofs, stop) →
      proofs.length ≤ config.totalProofsLimit.toNat ∧
        ∃ blobData, constructBlob (proofs.map fun proof => proof.2.commitment keccak) =
          some blobData) ∧
      config.run clients engine keccak crates proofsCrate client verify submit contents answers
        state ≠ .error .blobPanic := by
  have fits : ∀ proofs stop, state.fetch clients engine contents
      { answers with limit := config.totalProofsLimit.toNat } = .ok (proofs, stop) →
      proofs.length ≤ config.totalProofsLimit.toNat ∧
        ∃ blobData, constructBlob (proofs.map fun proof => proof.2.commitment keccak) =
          some blobData := by
    intro proofs stop fetched
    have length : proofs.length ≤ config.totalProofsLimit.toNat := length_of_fetch fetched
    have leaves : (proofs.map fun proof => proof.2.commitment keccak).length ≤ 3968 := by
      rw [List.length_map]
      exact length.trans bounded
    obtain ⟨zeros, constructed, -⟩ := constructBlob_eq leaves
    exact ⟨length, _, constructed⟩
  refine ⟨fits, ?_⟩
  intro panicked
  obtain ⟨proofs, stop, fetched, overflows⟩ := constructBlob_of_blobPanic panicked
  obtain ⟨-, blobData, constructed⟩ := fits proofs stop fetched
  rw [overflows] at constructed
  cases constructed

/-! ## A configuration with a higher limit -/

section

variable {engine : ZKVMEngine} {keccak : Bytes → Bytes32} {crates : AggregationMode.Crates}
  {client : ProvingClient} {verify : AggregationMode.ProgramOutput → Bool}

theorem prove_ne_error (never : ∀ output, client.failure output = none) (programId : Bytes32)
    (run : Option Bytes) (text : String) : client.prove programId run ≠ .error (.prove text) := by
  unfold ProvingClient.prove
  split
  · simp
  · rw [never]
    simp

/-- A client that always proves lets no aggregation fail for want of a proof. -/
theorem aggregateProofs_ne_error (never : ∀ output, client.failure output = none)
    (proofs : List AlignedProof) (proofsPerChunk : UInt16) (text : String) :
    engine.aggregateProofs keccak crates client verify proofs proofsPerChunk ≠
      .error (.prove text) := by
  have user : ∀ chunk, engine.runUserProofsAggregator crates client verify chunk ≠
      .error (.prove text) := by
    intro chunk
    rw [ZKVMEngine.runUserProofsAggregator]
    split
    · exact prove_ne_error never _ _ _
    · simp
  have chunked : ∀ chunks, engine.aggregateChunks keccak crates client verify chunks ≠
      .error (.prove text) := by
    intro chunks
    induction chunks with
    | nil => simp [ZKVMEngine.aggregateChunks]
    | cons chunk rest ih =>
        intro failed
        rw [ZKVMEngine.aggregateChunks] at failed
        rcases bind_eq_error.mp failed with first | ⟨aggProof, -, failed⟩
        · exact user chunk first
        · rcases bind_eq_error.mp failed with others | ⟨aggProofs, -, impossible⟩
          · exact ih others
          · cases impossible
  intro failed
  rw [ZKVMEngine.aggregateProofs] at failed
  split at failed
  · cases failed
  · rcases bind_eq_error.mp failed with first | ⟨aggProofs, -, failed⟩
    · exact chunked _ first
    · rcases bind_eq_error.mp failed with last | ⟨aggProof, -, failed⟩
      · exact prove_ne_error never _ _ _ last
      · rcases bind_eq_error.mp failed with unread | ⟨merkleRoot, -, impossible⟩
        · unfold ZKVMEngine.readMerkleRoot at unread
          split at unread
          · split at unread
            · cases unread
            · cases unread
          · split at unread
            · cases unread
            · cases unread
        · cases impossible

end

namespace Sample

def log : NewBatchV3 :=
  ⟨1, 0, Bytes32.zero, "batch"⟩

/-- The batch of the log, with its proof repeated. -/
def entries (count : Nat) (log : NewBatchV3) : List VerificationData :=
  (batchContents log).flatMap (List.replicate count)

def batchProof : AlignedProof :=
  .sp1 ⟨⟨.compressed [], []⟩, [], Bytes32.zero⟩

/-- A client that always proves. -/
def provingClient : ProvingClient where
  hashU32 _ := Vector.replicate 8 0
  userProofsProgramId := AggregationMode.sp1.userProofsAggregator
  chunkProgramId := Bytes32.zero
  failure _ := none

def crates : AggregationMode.Crates where
  proofs id := .reference (AggregationMode.commitment Keccak256.keccak256 id)
    (AggregationMode.hashNewParent Keccak256.keccak256)
  hashes := .reference id (AggregationMode.hashNewParent Keccak256.keccak256)

def proofsCrate : MerkleTreeCrate AlignedProof Bytes32 :=
  .reference (AlignedProof.commitment Keccak256.keccak256)
    (AggregationMode.hashNewParent Keccak256.keccak256)

theorem proofsToAdd_replicate (count : Nat) :
    ProofsFetcher.proofsToAdd proverClients .sp1 (entries count log) =
      .ok (List.replicate count batchProof) := by
  rw [entries, batchContents, List.flatMap_singleton]
  induction count with
  | zero => rfl
  | succ count ih =>
      rw [List.replicate_succ, ProofsFetcher.proofsToAdd, ih, List.replicate_succ]
      rfl

theorem fetch_entries {count limit : Nat} (fits : count ≤ limit) :
    ((initialAggregation 0).block oneBatch).fetch proverClients .sp1 (entries count)
        (aggregatorRun 1 limit) =
      .ok ((List.replicate count batchProof).map fun proof => (log, proof), 1) := by
  have logs : ProofsFetcher.logsOf 0 1 ((initialAggregation 0).block oneBatch).history =
      [log] := by
    decide +kernel
  have collected : ProofsFetcher.collect proverClients .sp1 limit 1
      (fun log => some (entries count log)) [log] [] =
        .ok ((List.replicate count batchProof).map fun proof => (log, proof), 1) := by
    rw [ProofsFetcher.collect]
    dsimp only
    rw [proofsToAdd_replicate]
    change (if 0 + (List.replicate count batchProof).length > limit then _ else _) = _
    rw [List.length_replicate, if_neg (by omega)]
    rfl
  rw [← collected, ← logs]
  rfl

/-- More proofs than fit are aggregated before the blob is built. -/
theorem run_entries {count limit : Nat} (many : 3968 < count) (fits : count ≤ limit) :
    ∃ aggregatedProof root,
      ZKVMEngine.sp1.aggregateProofs Keccak256.keccak256 crates provingClient (fun _ => true)
          (List.replicate count batchProof) 512 = .ok (aggregatedProof, root) ∧
      aggregateAndSubmitProofsOnChain .sp1 Keccak256.keccak256 crates proofsCrate provingClient
        (fun _ => true) (fun _ _ => none) 512
        (((initialAggregation 0).block oneBatch).fetch proverClients .sp1 (entries count)
          (aggregatorRun 1 limit)) = .error .blobPanic := by
  have documented : provingClient.Documented proverClients .sp1 (fun _ => true) := by
    refine ⟨?_, rfl, fun _ _ => rfl, fun _ _ _ _ => rfl, fun _ _ _ => rfl⟩
    intro elf vk setup
    cases setup
    decide +kernel
  have constructed : ∀ proof ∈ List.replicate count batchProof,
      proof.engine = .sp1 ∧ proof.Constructed proverClients := by
    intro proof member
    rw [List.eq_of_mem_replicate member]
    exact ⟨rfl, ⟨.compressed [], []⟩, [], rfl⟩
  have nonempty : List.replicate count batchProof ≠ [] := by
    rw [Ne, List.replicate_eq_nil_iff]
    omega
  obtain ⟨root, isRoot⟩ := ZKVMEngine.exists_root Keccak256.keccak256
    (mt List.map_eq_nil_iff.mp nonempty)
  have cratesDocumented : crates.Documented Keccak256.keccak256 :=
    ⟨fun _ => MerkleTreeCrate.reference_documented _ _,
      MerkleTreeCrate.reference_documented _ _⟩
  have positive : (512 : UInt16) ≠ 0 := by decide
  rcases ZKVMEngine.aggregateProofs_cases cratesDocumented documented positive constructed
    isRoot with ⟨aggregatedProof, ran⟩ | ⟨text, failed⟩
  · refine ⟨aggregatedProof, root, ran, ?_⟩
    have host : computeProofsMerkleRoot proofsCrate Keccak256.keccak256
        (List.replicate count batchProof) = some (root, (List.replicate count batchProof).map
          (AlignedProof.commitment Keccak256.keccak256)) := by
      have hostDocumented : proofsCrate.Documented _ _ :=
        MerkleTreeCrate.reference_documented _ _
      rw [computeProofsMerkleRoot, hostDocumented.build, isRoot]
      rfl
    have overflows : constructBlob ((List.replicate count batchProof).map
        (AlignedProof.commitment Keccak256.keccak256)) = none := by
      apply constructBlob_eq_none
      rw [List.length_map, List.length_replicate]
      exact many
    have proofs : ((List.replicate count batchProof).map fun proof => (log, proof)).map
        Prod.snd = List.replicate count batchProof := by
      rw [List.map_map]
      exact List.map_id _
    rw [fetch_entries fits]
    unfold aggregateAndSubmitProofsOnChain
    dsimp only
    rw [proofs, if_neg (by simpa using nonempty), host]
    dsimp only
    rw [ran]
    dsimp only
    rw [if_neg (not_not.mpr rfl), overflows]
  · exact absurd failed (aggregateProofs_ne_error (fun _ => rfl) _ _ _)

end Sample

/-- A run with the limit of the shipped configurations. -/
theorem blob_capacity_respected_shipped :
    (∃ proofs stop, ((initialAggregation 0).block Sample.oneBatch).fetch Sample.proverClients .sp1
        (Sample.entries 1) (Sample.aggregatorRun 1 3968) = .ok (proofs, stop) ∧
      proofs.length = 1 ∧
      ∃ blobData, constructBlob (proofs.map fun proof =>
        proof.2.commitment Keccak256.keccak256) = some blobData) ∧
      AggregationMode.Config.run Sample.proverClients .sp1 Keccak256.keccak256 Sample.crates
        Sample.proofsCrate Sample.provingClient (fun _ => true) (fun _ _ => none) ⟨512, 3968⟩
        (Sample.entries 1) (Sample.aggregatorRun 1 0)
        ((initialAggregation 0).block Sample.oneBatch) ≠ .error .blobPanic := by
  have fetched := @Sample.fetch_entries 1 3968 (by decide)
  obtain ⟨fits, builds⟩ := blob_capacity_respected Sample.proverClients .sp1 Keccak256.keccak256
    Sample.crates Sample.proofsCrate Sample.provingClient (fun _ => true) (fun _ _ => none)
    (Sample.entries 1) ⟨512, 3968⟩ (by decide) (Sample.aggregatorRun 1 0)
    ((initialAggregation 0).block Sample.oneBatch)
  refine ⟨⟨_, 1, fetched, rfl, ?_⟩, builds⟩
  exact (fits _ 1 fetched).2

/-- With a limit of 3969 a run aggregates as many proofs, and panics where it
builds the blob. -/
theorem run_panics_after_aggregation :
    ∃ aggregatedProof root,
      ZKVMEngine.sp1.aggregateProofs Keccak256.keccak256 Sample.crates Sample.provingClient
          (fun _ => true) (List.replicate 3969 Sample.batchProof) 512 =
        .ok (aggregatedProof, root) ∧
      AggregationMode.Config.run Sample.proverClients .sp1 Keccak256.keccak256 Sample.crates
        Sample.proofsCrate Sample.provingClient (fun _ => true) (fun _ _ => none) ⟨512, 3969⟩
        (Sample.entries 3969) (Sample.aggregatorRun 1 0)
        ((initialAggregation 0).block Sample.oneBatch) = .error .blobPanic :=
  @Sample.run_entries 3969 3969 (by decide) (by decide)

end AlignedLayer
