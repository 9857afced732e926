import AlignedLayer.AggregationMode.Aggregators
import AlignedLayer.AggregationMode.FetchOnce
import AlignedLayer.Contracts.AlignedProofAggregationService
import AlignedLayer.Library.Keccak256

/-!
# One root for the aggregation

The programs, the host, the SDK and the contract agree on the root over the
proofs.  The chunk aggregator receives the leaves of a chunk without the
padding of its tree, so that appending the leaves of all chunks gives the
leaves of all proofs.
-/

namespace AlignedLayer

theorem flatten_chunks {Item : Type} (size : Nat) (items : List Item) :
    (chunks size items).flatten = items := by
  induction items using chunks.induct size with
  | case1 => rw [chunks, List.flatten_nil]
  | case2 first rest induction =>
      rw [chunks, List.flatten_cons, induction, List.cons_append, List.take_append_drop]

theorem ne_nil_of_mem_chunks {Item : Type} {size : Nat} {items chunk : List Item}
    (member : chunk ∈ chunks size items) : chunk ≠ [] := by
  induction items using chunks.induct size with
  | case1 =>
      rw [chunks] at member
      cases member
  | case2 first rest induction =>
      rw [chunks, List.mem_cons] at member
      rcases member with rfl | later
      · exact List.cons_ne_nil _ _
      · exact induction later

namespace AlignedProof

/-- The proof has passed the constructor of its type. -/
def Constructed (clients : ProverClients) : AlignedProof → Prop
  | .sp1 proof => ∃ proofWithPubValues elf,
      SP1ProofWithPubValuesAndElf.new clients proofWithPubValues elf = .ok (some proof)
  | .risc0 proof => ∃ imageId receipt,
      Risc0ProofReceiptAndImageId.new clients imageId receipt = some proof

end AlignedProof

/-- How the proving client and the verification inside the programs behave. -/
structure ProvingClient.Documented (client : ProvingClient) (clients : ProverClients)
    (engine : ZKVMEngine) (verify : AggregationMode.ProgramOutput → Bool) : Prop where
  /-- The bytes of a key are its words in big endian. -/
  hashU32 : ∀ elf vk, clients.setupSP1 elf = some vk →
    AggregationMode.wordBytes (client.hashU32 vk) = vk
  /-- The constant of the chunk aggregator was generated from the program. -/
  programId : client.userProofsProgramId = engine.system.userProofsAggregator
  proved : ∀ output, client.failure output = none → verify output = true
  sp1 : ∀ proof publicValues vk, clients.verifySP1 ⟨.compressed proof, publicValues⟩ vk = true →
    verify ⟨vk, publicValues⟩ = true
  risc0 : ∀ receipt imageId, clients.verifyRisc0 receipt imageId = true →
    verify ⟨imageId, receipt.journal⟩ = true

namespace ZKVMEngine

open AggregationMode

/-- What everyone makes of the proofs of an aggregation. -/
structure Agree (engine : ZKVMEngine) (keccak : Bytes → Bytes32) (crates : Crates)
    (proofsCrate : MerkleTreeCrate AlignedProof Bytes32)
    (sdkHashes : MerkleTreeCrate Bytes32 Bytes32)
    (processProofCalldata : List Bytes32 → Bytes32 → Bytes32) (client : ProvingClient)
    (verify : ProgramOutput → Bool) (proofs : List AlignedProof) (proofsPerChunk : UInt16)
    (root : Bytes32) : Prop where
  host : computeProofsMerkleRoot proofsCrate keccak proofs =
    some (root, proofs.map (AlignedProof.commitment keccak))
  sdk : sdkHashes.build (proofs.map (AlignedProof.commitment keccak)) = some root
  /-- Every run of the user-proofs aggregator commits to the root of its chunk. -/
  userProofs : ∀ chunk ∈ chunks proofsPerChunk.toNat proofs, ∃ chunkRoot : Bytes32,
    crates.hashes.build (chunk.map (AlignedProof.commitment keccak)) = some chunkRoot ∧
      userProofsAggregator crates engine.system verify (chunk.map client.programOutput) =
        some chunkRoot.toList
  /-- The chunk aggregator does not panic on what the host gives it. -/
  chunks : ∀ aggProofs, aggregateChunks engine keccak crates client verify
      (chunks proofsPerChunk.toNat proofs) = .ok aggProofs →
    chunkAggregator crates engine.system verify aggProofs = some root.toList
  /-- Only the proving itself can fail. -/
  result : (∃ aggProof, aggregateProofs engine keccak crates client verify proofs
      proofsPerChunk = .ok (aggProof, root)) ∨
    ∃ text, aggregateProofs engine keccak crates client verify proofs proofsPerChunk =
      .error (.prove text)
  /-- The contract computes the root from the path of every proof. -/
  paths : ∀ index proof, proofs[index]? = some proof → ∃ merklePath,
    sdkHashes.getProofByPos (proofs.map (AlignedProof.commitment keccak)) index =
        some merklePath ∧
      processProofCalldata merklePath (proof.verificationData.commitment keccak) = root
  /-- The SDK reports every proof with a path that the contract accepts. -/
  verified : ∀ proof ∈ proofs, ∃ merklePath,
    proof.verificationData.checkProofVerification keccak sdkHashes
        [(root, proofs.map (AlignedProof.commitment keccak))] = .verified root merklePath ∧
      ∀ state : AlignedProofAggregationService.State,
        AlignedProofAggregationService.verifyProofInclusion keccak processProofCalldata merklePath
            proof.verificationData.provingSystemId proof.verificationData.programId
            proof.verificationData.publicInputs state =
          state.aggregatedProofs root

variable {engine : ZKVMEngine} {keccak : Bytes → Bytes32} {crates : Crates}
  {client : ProvingClient} {clients : ProverClients} {verify : ProgramOutput → Bool}
  {proof : AlignedProof}

/-! ## The leaves -/

theorem commitment_verificationData (keccak : Bytes → Bytes32) (proof : AlignedProof) :
    proof.verificationData.commitment keccak = proof.commitment keccak := by
  cases proof with
  | sp1 => rfl
  | risc0 => rfl

/-- The contract hashes what the SDK hashes. -/
theorem commitment_of_data (keccak : Bytes → Bytes32) (data : AggregationModeVerificationData) :
    commitment keccak data.provingSystemId ⟨data.programId, data.publicInputs⟩ =
      data.commitment keccak :=
  rfl

theorem sp1_new_eq_some {proofWithPubValues : SP1ProofWithPublicValues} {elf : Bytes}
    {proof : SP1ProofWithPubValuesAndElf}
    (isNew : SP1ProofWithPubValuesAndElf.new clients proofWithPubValues elf = .ok (some proof)) :
    ∃ bytes, proof.proofWithPubValues.proof = .compressed bytes ∧
      clients.setupSP1 elf = some proof.vk ∧
      clients.verifySP1 proof.proofWithPubValues proof.vk = true := by
  rw [SP1ProofWithPubValuesAndElf.new] at isNew
  split at isNew
  · cases isNew
  · rename_i vk setup
    split at isNew
    · rename_i bytes compressed
      split at isNew
      · rename_i accepted
        cases isNew
        exact ⟨bytes, compressed, setup, accepted⟩
      · cases isNew
    · cases isNew

theorem risc0_new_eq_some {imageId : Bytes32} {receipt : Receipt}
    {proof : Risc0ProofReceiptAndImageId}
    (isNew : Risc0ProofReceiptAndImageId.new clients imageId receipt = some proof) :
    clients.verifyRisc0 proof.receipt proof.imageId = true := by
  rw [Risc0ProofReceiptAndImageId.new] at isNew
  split at isNew
  case h_3 => cases isNew
  all_goals
    split at isNew
    · rename_i accepted
      cases isNew
      exact accepted
    · cases isNew

theorem supported_of_constructed (constructed : proof.Constructed clients) :
    proof.supported = true := by
  cases proof with
  | sp1 proof =>
      obtain ⟨proofWithPubValues, elf, isNew⟩ := constructed
      obtain ⟨bytes, compressed, -, -⟩ := sp1_new_eq_some isNew
      rw [AlignedProof.supported, compressed]
  | risc0 proof => rfl

/-- The user-proofs aggregator hashes what the host hashes. -/
theorem commitment_programOutput (documented : client.Documented clients engine verify)
    (same : proof.engine = engine) (constructed : proof.Constructed clients) :
    commitment keccak engine.system.id (client.programOutput proof) =
      proof.commitment keccak := by
  subst same
  cases proof with
  | sp1 proof =>
      obtain ⟨proofWithPubValues, elf, isNew⟩ := constructed
      obtain ⟨bytes, -, setup, -⟩ := sp1_new_eq_some isNew
      rw [ProvingClient.programOutput, documented.hashU32 elf proof.vk setup]
      rfl
  | risc0 proof => rfl

/-- The programs accept what the host has constructed. -/
theorem verify_of_constructed (documented : client.Documented clients engine verify)
    (constructed : proof.Constructed clients) :
    verify (client.programOutput proof) = true := by
  cases proof with
  | sp1 proof =>
      obtain ⟨proofWithPubValues, elf, isNew⟩ := constructed
      obtain ⟨bytes, compressed, setup, accepted⟩ := sp1_new_eq_some isNew
      rw [ProvingClient.programOutput, documented.hashU32 elf proof.vk setup]
      apply documented.sp1 bytes
      rw [← compressed]
      exact accepted
  | risc0 proof =>
      obtain ⟨imageId, receipt, isNew⟩ := constructed
      exact documented.risc0 proof.receipt proof.imageId (risc0_new_eq_some isNew)

theorem map_commitment_programOutput (documented : client.Documented clients engine verify)
    {proofs : List AlignedProof}
    (fetched : ∀ proof ∈ proofs, proof.engine = engine ∧ proof.Constructed clients) :
    (proofs.map client.programOutput).map (commitment keccak engine.system.id) =
      proofs.map (AlignedProof.commitment keccak) := by
  rw [List.map_map]
  apply List.map_congr_left
  intro proof member
  exact commitment_programOutput documented (fetched proof member).1 (fetched proof member).2

/-! ## What is fetched -/

theorem fetched_of_compatible {data : VerificationData}
    (compatible : ProofsFetcher.compatible clients engine data = .ok (some proof)) :
    proof.engine = engine ∧ proof.Constructed clients := by
  cases engine with
  | sp1 =>
      rw [ProofsFetcher.compatible] at compatible
      split at compatible
      · cases compatible
      · split at compatible
        · rename_i elf proofWithPubValues _ _
          cases isNew : SP1ProofWithPubValuesAndElf.new clients proofWithPubValues elf with
          | error failure =>
              rw [isNew] at compatible
              cases compatible
          | ok found =>
              rw [isNew] at compatible
              cases found with
              | none => cases compatible
              | some proof =>
                  cases compatible
                  exact ⟨rfl, proofWithPubValues, elf, isNew⟩
        · cases compatible
  | risc0 =>
      rw [ProofsFetcher.compatible] at compatible
      split at compatible
      · cases compatible
      · split at compatible
        · cases compatible
        · split at compatible
          · cases compatible
          · rename_i imageId _
            split at compatible
            · rename_i publicInputs inner _ _
              rw [Except.ok.injEq, Option.map_eq_some_iff] at compatible
              obtain ⟨proof, isNew, rfl⟩ := compatible
              exact ⟨rfl, imageId, ⟨inner, publicInputs⟩, isNew⟩
            · cases compatible

/-- Every fetched proof is of the engine and has been verified. -/
theorem fetched_of_fetch {state : Aggregation} {contents : NewBatchV3 → List VerificationData}
    {run : AggregatorRun} {result : List (NewBatchV3 × AlignedProof) × Nat}
    (fetched : state.fetch clients engine contents run = .ok result)
    (member : proof ∈ result.1.map Prod.snd) :
    proof.engine = engine ∧ proof.Constructed clients := by
  obtain ⟨currentBlock, -, -, rfl⟩ := fetch_eq fetched
  obtain ⟨⟨log, other⟩, entry, rfl⟩ := List.mem_map.mp member
  obtain ⟨source, -, taken⟩ := List.mem_flatMap.mp entry
  obtain ⟨valid, isValid, same⟩ := List.mem_map.mp taken
  cases same
  rw [AggregatorRun.proofsOf] at isValid
  split at isValid
  · obtain ⟨data, -, checked⟩ := List.mem_filterMap.mp isValid
    apply fetched_of_compatible
    cases compatible : ProofsFetcher.compatible clients engine data with
    | error failure =>
        rw [compatible] at checked
        cases checked
    | ok found =>
        rw [compatible] at checked
        cases found with
        | none => cases checked
        | some proof =>
            cases checked
            rfl
  · cases isValid

/-! ## The programs -/

theorem bind_of_ok {Error Value Result : Type} {computed : Except Error Value} {value : Value}
    (ok : computed = .ok value) (next : Value → Except Error Result) :
    computed >>= next = next value := by
  rw [ok]
  rfl

theorem bind_of_error {Error Value Result : Type} {computed : Except Error Value} {error : Error}
    (failed : computed = .error error) (next : Value → Except Error Result) :
    computed >>= next = .error error := by
  rw [failed]
  rfl

theorem readMerkleRoot_toList (engine : ZKVMEngine) (root : Bytes32) :
    engine.readMerkleRoot root.toList = .ok root := by
  have taken : root.toList.take 32 = root.toList := List.take_of_length_le (by simp)
  cases engine with
  | sp1 => rw [readMerkleRoot, taken, Bytes32.ofSlice_toList]
  | risc0 => rw [readMerkleRoot, Bytes32.ofSlice_toList]

theorem exists_root (keccak : Bytes → Bytes32) {leaves : List Bytes32} (nonempty : leaves ≠ []) :
    ∃ root, MerkleTree.root (hashNewParent keccak) leaves = some root := by
  obtain ⟨leaf, rest, rfl⟩ := List.exists_cons_of_ne_nil nonempty
  have found : (leaf :: rest)[0]? = some leaf := List.getElem?_cons_zero
  obtain ⟨path, -, isRoot⟩ := @MerkleTree.root_eq_climb _ (hashNewParent keccak) _ _ _ found
  exact ⟨_, isRoot⟩

/-- What the chunk aggregator asserts about a chunk. -/
structure PassesAssertions (engine : ZKVMEngine) (crates : Crates)
    (verify : ProgramOutput → Bool) (chunk : ProgramOutput × List Bytes32) : Prop where
  programId : chunk.1.programId = engine.system.userProofsAggregator
  root : ∃ chunkRoot : Bytes32, crates.hashes.build chunk.2 = some chunkRoot ∧
    chunk.1.publicInputs = chunkRoot.toList
  verified : verify chunk.1 = true

theorem chunkLeaves_of_passes {input : List (ProgramOutput × List Bytes32)}
    (passes : ∀ chunk ∈ input, PassesAssertions engine crates verify chunk)
    (leaves : List Bytes32) :
    chunkLeaves crates engine.system verify input leaves =
      some (leaves ++ input.flatMap Prod.snd) := by
  induction input generalizing leaves with
  | nil => rw [chunkLeaves, List.flatMap_nil, List.append_nil]
  | cons chunk rest induction =>
      obtain ⟨proof, leavesCommitment⟩ := chunk
      have first := passes _ List.mem_cons_self
      obtain ⟨chunkRoot, built, committed⟩ := first.root
      have decoded : Bytes32.ofSlice proof.publicInputs = some chunkRoot := by
        rw [committed]
        exact Bytes32.ofSlice_toList chunkRoot
      rw [chunkLeaves, if_pos first.programId, decoded, built]
      dsimp only
      rw [if_pos ⟨rfl, first.verified⟩, List.flatMap_cons, ← List.append_assoc]
      apply induction
      intro chunk member
      exact passes chunk (List.mem_cons_of_mem _ member)

/-- A run of the user-proofs aggregator commits to the root of the leaves that
the host passes on with it. -/
theorem userProofsAggregator_chunk (cratesDocumented : crates.Documented keccak)
    (documented : client.Documented clients engine verify) {chunk : List AlignedProof}
    (nonempty : chunk ≠ [])
    (fetched : ∀ proof ∈ chunk, proof.engine = engine ∧ proof.Constructed clients) :
    ∃ chunkRoot : Bytes32,
      crates.hashes.build (chunk.map (AlignedProof.commitment keccak)) = some chunkRoot ∧
        userProofsAggregator crates engine.system verify (chunk.map client.programOutput) =
          some chunkRoot.toList := by
  have leavesNonempty : chunk.map (AlignedProof.commitment keccak) ≠ [] := by
    simpa using nonempty
  obtain ⟨chunkRoot, isRoot⟩ := exists_root keccak leavesNonempty
  have accepted : (chunk.map client.programOutput).all verify = true := by
    rw [List.all_map, List.all_eq_true]
    intro proof member
    exact verify_of_constructed documented (fetched proof member).2
  refine ⟨chunkRoot, ?_, ?_⟩
  · rw [cratesDocumented.hashes.build, List.map_id]
    exact isRoot
  · rw [userProofsAggregator, if_pos accepted, (cratesDocumented.proofs _).build,
      map_commitment_programOutput documented fetched, isRoot, Option.map_some]

theorem runUserProofsAggregator_cases (cratesDocumented : crates.Documented keccak)
    (documented : client.Documented clients engine verify) {chunk : List AlignedProof}
    (nonempty : chunk ≠ [])
    (fetched : ∀ proof ∈ chunk, proof.engine = engine ∧ proof.Constructed clients) :
    (∃ text, runUserProofsAggregator engine crates client verify chunk =
        .error (.prove text)) ∨
      ∃ aggProof, runUserProofsAggregator engine crates client verify chunk = .ok aggProof ∧
        PassesAssertions engine crates verify
          (aggProof, chunk.map (AlignedProof.commitment keccak)) := by
  obtain ⟨chunkRoot, built, committed⟩ :=
    userProofsAggregator_chunk cratesDocumented documented nonempty fetched
  have supported : chunk.all AlignedProof.supported = true := by
    rw [List.all_eq_true]
    intro proof member
    exact supported_of_constructed (fetched proof member).2
  rw [runUserProofsAggregator, if_pos supported, committed, ProvingClient.prove]
  cases failed : client.failure ⟨client.userProofsProgramId, chunkRoot.toList⟩ with
  | some text => exact .inl ⟨text, rfl⟩
  | none =>
      right
      refine ⟨_, rfl, documented.programId, ?_, documented.proved _ failed⟩
      exact ⟨chunkRoot, built, rfl⟩

theorem aggregateChunks_cases (cratesDocumented : crates.Documented keccak)
    (documented : client.Documented clients engine verify) {groups : List (List AlignedProof)}
    (nonempty : ∀ chunk ∈ groups, chunk ≠ [])
    (fetched : ∀ proof ∈ groups.flatten, proof.engine = engine ∧ proof.Constructed clients) :
    (∃ text, aggregateChunks engine keccak crates client verify groups =
        .error (.prove text)) ∨
      ∃ aggProofs, aggregateChunks engine keccak crates client verify groups = .ok aggProofs ∧
        aggProofs.flatMap Prod.snd = groups.flatten.map (AlignedProof.commitment keccak) ∧
        ∀ chunk ∈ aggProofs, PassesAssertions engine crates verify chunk := by
  induction groups with
  | nil => exact .inr ⟨[], rfl, rfl, fun chunk none => by cases none⟩
  | cons chunk rest induction =>
      have first := runUserProofsAggregator_cases cratesDocumented documented
        (nonempty chunk List.mem_cons_self)
        fun proof member => fetched proof (by
          rw [List.flatten_cons]
          exact List.mem_append_left _ member)
      have others := induction (fun chunk member => nonempty chunk (List.mem_cons_of_mem _ member))
        fun proof member => fetched proof (by
          rw [List.flatten_cons]
          exact List.mem_append_right _ member)
      rw [aggregateChunks]
      rcases first with ⟨text, failed⟩ | ⟨aggProof, ran, passes⟩
      · exact .inl ⟨text, bind_of_error failed _⟩
      · rw [bind_of_ok ran]
        rcases others with ⟨text, failed⟩ | ⟨aggProofs, ranOthers, leaves, passesOthers⟩
        · exact .inl ⟨text, bind_of_error failed _⟩
        · rw [bind_of_ok ranOthers]
          refine .inr ⟨_, rfl, ?_, ?_⟩
          · rw [List.flatMap_cons, leaves, List.flatten_cons, List.map_append]
          · intro entry member
            rcases List.mem_cons.mp member with rfl | later
            · exact passes
            · exact passesOthers entry later

theorem chunkAggregator_of_passes (cratesDocumented : crates.Documented keccak)
    {aggProofs : List (ProgramOutput × List Bytes32)} {leaves : List Bytes32} {root : Bytes32}
    (passes : ∀ chunk ∈ aggProofs, PassesAssertions engine crates verify chunk)
    (collected : aggProofs.flatMap Prod.snd = leaves)
    (isRoot : MerkleTree.root (hashNewParent keccak) leaves = some root) :
    chunkAggregator crates engine.system verify aggProofs = some root.toList := by
  rw [chunkAggregator, chunkLeaves_of_passes passes, List.nil_append, collected, Option.bind_some,
    cratesDocumented.hashes.build, List.map_id, isRoot, Option.map_some]

/-! ## The paths -/

/-- The contract needs no sides: it orders every pair itself. -/
theorem processProofCalldata_eq_climb
    {processProofCalldata : List Bytes32 → Bytes32 → Bytes32}
    (processed : AlignedProofAggregationService.ProcessesSortedPairs keccak processProofCalldata)
    (path : List Bytes32) (index : Nat) (leaf : Bytes32) :
    processProofCalldata path leaf = MerkleTree.climb (hashNewParent keccak) path index leaf := by
  rw [processed, hashNewParent, MerkleTree.climb_eq_fold nodeBytes_comm, MerkleTree.fold_eq_foldl]

theorem exists_path_of_position {sdkHashes : MerkleTreeCrate Bytes32 Bytes32}
    (sdkDocumented : sdkHashes.Documented id (hashNewParent keccak)) {leaves : List Bytes32}
    {root leaf : Bytes32} (isRoot : MerkleTree.root (hashNewParent keccak) leaves = some root)
    {index : Nat} (found : leaves[index]? = some leaf) :
    ∃ merklePath, sdkHashes.getProofByPos leaves index = some merklePath ∧
      MerkleTree.climb (hashNewParent keccak) merklePath index leaf = root := by
  obtain ⟨path, isPath, climbs⟩ := @MerkleTree.root_eq_climb _ (hashNewParent keccak) _ _ _ found
  have bound := (List.getElem?_eq_some_iff.mp found).1
  refine ⟨path, ?_, ?_⟩
  · rw [sdkDocumented.getProofByPos leaves index bound, List.map_id]
    exact isPath
  · rw [isRoot, Option.some.injEq] at climbs
    exact climbs.symm

/-- A commitment in the blob is found and its path is checked. -/
theorem checkProofVerification_of_mem {sdkHashes : MerkleTreeCrate Bytes32 Bytes32}
    (sdkDocumented : sdkHashes.Documented id (hashNewParent keccak)) {leaves : List Bytes32}
    {root : Bytes32} (isRoot : MerkleTree.root (hashNewParent keccak) leaves = some root)
    {data : AggregationModeVerificationData} (member : data.commitment keccak ∈ leaves)
    (logs : List (Bytes32 × List Bytes32)) :
    ∃ merklePath index,
      data.checkProofVerification keccak sdkHashes ((root, leaves) :: logs) =
          .verified root merklePath ∧
        MerkleTree.climb (hashNewParent keccak) merklePath index (data.commitment keccak) =
          root := by
  obtain ⟨index, position⟩ : ∃ index,
      leaves.findIdx? (fun leaf => leaf = data.commitment keccak) = some index := by
    rw [← Option.isSome_iff_exists, List.findIdx?_isSome, List.any_eq_true]
    exact ⟨_, member, decide_eq_true rfl⟩
  obtain ⟨bound, same, -⟩ := List.findIdx?_eq_some_iff_getElem.mp position
  have found : leaves[index]? = some (data.commitment keccak) := by
    rw [List.getElem?_eq_getElem bound, of_decide_eq_true same]
  obtain ⟨merklePath, isPath, climbs⟩ := exists_path_of_position sdkDocumented isRoot found
  have built : sdkHashes.build leaves = some root := by
    rw [sdkDocumented.build, List.map_id]
    exact isRoot
  have checked : sdkHashes.verify merklePath root index (data.commitment keccak) = true :=
    (sdkDocumented.verify _ _ _ _).mpr climbs
  refine ⟨merklePath, index, ?_, climbs⟩
  rw [AggregationModeVerificationData.checkProofVerification, position]
  dsimp only
  rw [built, isPath]
  dsimp only
  rw [if_pos checked]

/-! ## Agreement -/

theorem aggregateProofs_cases (cratesDocumented : crates.Documented keccak)
    (documented : client.Documented clients engine verify) {proofs : List AlignedProof}
    {proofsPerChunk : UInt16} (positive : proofsPerChunk ≠ 0) {root : Bytes32}
    (fetched : ∀ proof ∈ proofs, proof.engine = engine ∧ proof.Constructed clients)
    (isRoot : MerkleTree.root (hashNewParent keccak)
      (proofs.map (AlignedProof.commitment keccak)) = some root) :
    (∃ aggProof, aggregateProofs engine keccak crates client verify proofs proofsPerChunk =
        .ok (aggProof, root)) ∨
      ∃ text, aggregateProofs engine keccak crates client verify proofs proofsPerChunk =
        .error (.prove text) := by
  have own : proofs.filter (fun proof => proof.engine = engine) = proofs := by
    apply List.filter_eq_self.mpr
    intro proof member
    exact decide_eq_true (fetched proof member).1
  have flattened := flatten_chunks proofsPerChunk.toNat proofs
  rw [aggregateProofs, own, if_neg positive]
  rcases aggregateChunks_cases cratesDocumented documented
      (fun chunk member => ne_nil_of_mem_chunks member)
      (by rw [flattened]; exact fetched) with ⟨text, failed⟩ | ⟨aggProofs, ran, leaves, passes⟩
  · rw [failed]
    exact .inr ⟨text, rfl⟩
  · rw [flattened] at leaves
    rw [bind_of_ok ran]
    have committed := chunkAggregator_of_passes cratesDocumented passes leaves isRoot
    cases failed : client.failure ⟨client.chunkProgramId, root.toList⟩ with
    | some text =>
        have proved : runChunkAggregator engine crates client verify aggProofs =
            .error (.prove text) := by
          rw [runChunkAggregator, committed, ProvingClient.prove, failed]
        refine .inr ⟨text, ?_⟩
        exact bind_of_error proved _
    | none =>
        have proved : runChunkAggregator engine crates client verify aggProofs =
            .ok ⟨client.chunkProgramId, root.toList⟩ := by
          rw [runChunkAggregator, committed, ProvingClient.prove, failed]
        refine .inl ⟨⟨client.chunkProgramId, root.toList⟩, ?_⟩
        rw [bind_of_ok proved, bind_of_ok (readMerkleRoot_toList engine root)]
        rfl

namespace Sample

def proverClients : ProverClients where
  deserializeSP1 _ := none
  setupSP1 _ := some (wordBytes #v[1, 2, 3, 4, 5, 6, 7, 8])
  verifySP1 _ _ := true
  deserializeRisc0 _ := none
  verifyRisc0 _ _ := true

def provingClient : ProvingClient where
  hashU32 _ := #v[1, 2, 3, 4, 5, 6, 7, 8]
  userProofsProgramId := AggregationMode.sp1.userProofsAggregator
  chunkProgramId := Bytes32.zero
  failure _ := none

def compressedProof (publicValues : Bytes) : AlignedProof :=
  .sp1 ⟨⟨.compressed [], publicValues⟩, [], wordBytes #v[1, 2, 3, 4, 5, 6, 7, 8]⟩

/-- Three proofs, of which the last is alone in its chunk. -/
def proofs : List AlignedProof :=
  [compressedProof [1], compressedProof [2], compressedProof [3]]

end Sample

end ZKVMEngine

end AlignedLayer
