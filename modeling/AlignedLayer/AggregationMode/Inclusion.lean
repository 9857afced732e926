import AlignedLayer.Contracts.AlignedProofAggregationService
import AlignedLayer.Library.CollisionFree
import AlignedLayer.Library.Keccak256

/-!
# Inclusion of a proof in an aggregation

What `verifyProofInclusion` says about a proof.  A leaf hashes the proving
system, the program and the public inputs, an inner node two words.  Nothing
tells the two apart, so a proof with public inputs of 30 bytes can be read as
a pair of nodes, and a pair of nodes as a proof.
-/

namespace AlignedLayer

namespace AggregationMode

open MerkleTree

/-- The proofs a run of the user-proofs aggregator verified, and the leaves
that were given to the chunk aggregator for them. -/
structure Chunk where
  proofs : List ProgramOutput
  leaves : List Bytes32

structure AggregationRun where
  system : ProvingSystem
  chunks : List Chunk

def AggregationRun.verified (run : AggregationRun) : List ProgramOutput :=
  run.chunks.flatMap Chunk.proofs

def AggregationRun.leaves (run : AggregationRun) : List Bytes32 :=
  run.chunks.flatMap Chunk.leaves

/-- The runs of the two programs go through and commit to the root. -/
structure AggregationRun.Produces (crates : Crates)
    (verify : ProvingSystem → ProgramOutput → Bool) (root : Bytes32) (run : AggregationRun) :
    Prop where
  chunks : ∀ chunk ∈ run.chunks, ∃ chunkRoot : Bytes32,
    userProofsAggregator crates run.system (verify run.system) chunk.proofs =
        some chunkRoot.toList ∧
      crates.hashes.build chunk.leaves = some chunkRoot
  root : crates.hashes.build run.leaves = some root

/-- A verifier only accepts public output that the pinned program can produce,
whatever its private input. -/
structure SoundVerifiers (crates : Crates) (verify : ProvingSystem → ProgramOutput → Bool)
    (accepted : ProvingSystem → Bytes → Prop) : Prop where
  userProofs : ∀ system proof, verify system proof = true →
    proof.programId = system.userProofsAggregator →
      ∃ proofs, userProofsAggregator crates system (verify system) proofs =
        some proof.publicInputs
  chunks : ∀ system output, accepted system output →
    ∃ input, chunkAggregator crates system (verify system) input = some output

section Messages

variable (keccak : Bytes → Bytes32)

/-- The pairs that are hashed above the given leaves. -/
def pairsAbove (leaves : List Bytes32) : List Bytes :=
  treeMessages keccak nodeBytes (depth leaves) (padded leaves)

/-- The pairs that are hashed in the tree of a chunk. -/
def Chunk.pairs (id : UInt16) (chunk : Chunk) : List Bytes :=
  pairsAbove keccak (chunk.proofs.map (commitment keccak id))

/-- Two nodes whose parent is in the tree over all leaves, or in the tree of a
chunk at a leaf that was given for it, or below such a leaf. -/
def AggregationRun.Siblings (run : AggregationRun) (bytes : Bytes) : Prop :=
  bytes ∈ pairsAbove keccak run.leaves ∨
    ∃ chunk ∈ run.chunks, bytes ∈ chunk.pairs keccak run.system.id ∧
      ∃ path, fold keccak nodeBytes path (keccak bytes) ∈ chunk.leaves ∧
        ∀ message ∈ foldMessages keccak nodeBytes path (keccak bytes),
          message ∈ chunk.pairs keccak run.system.id

/-- Everything that is hashed in the two programs. -/
def AggregationRun.hashed (run : AggregationRun) : List Bytes :=
  run.verified.map (commitmentBytes run.system.id) ++ pairsAbove keccak run.leaves ++
    run.chunks.flatMap fun chunk =>
      chunk.pairs keccak run.system.id ++ pairsAbove keccak chunk.leaves

/-- Everything that is hashed in the two programs and in `verifyProofInclusion`. -/
def AggregationRun.hashedForInclusion (run : AggregationRun) (merklePath : List Bytes32)
    (provingSystemId : UInt16) (proof : ProgramOutput) : List Bytes :=
  commitmentBytes provingSystemId proof :: run.hashed keccak ++
    foldMessages keccak nodeBytes merklePath (commitment keccak provingSystemId proof)

/-- A path from the proof passes a leaf that was given for a chunk, and hashes
a verified proof of this chunk as a pair of nodes. -/
def AggregationRun.PassesProof (run : AggregationRun) (provingSystemId : UInt16)
    (proof : ProgramOutput) : Prop :=
  ∃ chunk ∈ run.chunks, ∃ before after,
    Set.InjOn keccak {message | message ∈
      run.hashedForInclusion keccak (before ++ after) provingSystemId proof} ∧
    fold keccak nodeBytes before (commitment keccak provingSystemId proof) ∈ chunk.leaves ∧
    ∃ other ∈ chunk.proofs, commitmentBytes run.system.id other ∈
      foldMessages keccak nodeBytes (before ++ after) (commitment keccak provingSystemId proof)

/-- The proof can be confused with inner nodes of the trees. -/
def AggregationRun.Confusable (run : AggregationRun) (provingSystemId : UInt16)
    (proof : ProgramOutput) : Prop :=
  run.Siblings keccak (commitmentBytes provingSystemId proof) ∨
    run.PassesProof keccak provingSystemId proof

end Messages

section Soundness

/-! ## Where a stored root comes from -/

variable {keccak : Bytes → Bytes32} {crates : Crates}
  {verify : ProvingSystem → ProgramOutput → Bool} {run : AggregationRun}
  {root : Bytes32}

theorem toList_of_ofSlice {bytes : Bytes} {word : Bytes32}
    (same : Bytes32.ofSlice bytes = some word) : word.toList = bytes := by
  rw [Bytes32.ofSlice] at same
  split at same
  · cases same
    simp
  · cases same

theorem decodeBytes32_toList (word : Bytes32) :
    AlignedProofAggregationService.decodeBytes32 word.toList = .ok word := by
  have taken : word.toList.take 32 = word.toList := List.take_of_length_le (by simp)
  rw [AlignedProofAggregationService.decodeBytes32, taken, Bytes32.ofSlice_toList]

/-- What the loop of the chunk aggregator has checked. -/
theorem chunkLeaves_spec {system : ProvingSystem} {accepted : ProvingSystem → Bytes → Prop}
    (sound : SoundVerifiers crates verify accepted)
    {input : List (ProgramOutput × List Bytes32)} {before leaves : List Bytes32}
    (ran : chunkLeaves crates system (verify system) input before = some leaves) :
    ∃ chunks : List Chunk, leaves = before ++ chunks.flatMap Chunk.leaves ∧
      ∀ chunk ∈ chunks, ∃ chunkRoot : Bytes32,
        userProofsAggregator crates system (verify system) chunk.proofs =
            some chunkRoot.toList ∧
          crates.hashes.build chunk.leaves = some chunkRoot := by
  induction input generalizing before with
  | nil =>
      cases ran
      refine ⟨[], by simp, ?_⟩
      intro chunk member
      cases member
  | cons first rest induction =>
      obtain ⟨proof, leavesCommitment⟩ := first
      rw [chunkLeaves] at ran
      split at ran
      · rename_i program
        split at ran
        · rename_i merkleRoot built decoded isRoot
          split at ran
          · rename_i checked
            obtain ⟨rfl, verified⟩ := checked
            obtain ⟨chunks, same, produced⟩ := induction ran
            obtain ⟨proofs, outputs⟩ := sound.userProofs system proof verified program
            refine ⟨⟨proofs, leavesCommitment⟩ :: chunks, ?_, ?_⟩
            · rw [same, List.flatMap_cons, List.append_assoc]
            · intro chunk member
              rcases List.mem_cons.mp member with rfl | later
              · refine ⟨built, ?_, isRoot⟩
                rw [outputs, toList_of_ofSlice decoded]
              · exact produced chunk later
          · cases ran
        · cases ran
      · cases ran

/-- Every accepted public output is the root of an aggregation. -/
theorem produces_of_accepted {system : ProvingSystem} {output : Bytes}
    {accepted : ProvingSystem → Bytes → Prop} (sound : SoundVerifiers crates verify accepted)
    (isAccepted : accepted system output) :
    ∃ run : AggregationRun, ∃ root : Bytes32, output = root.toList ∧ run.system = system ∧
      run.Produces crates verify root := by
  obtain ⟨input, ran⟩ := sound.chunks system output isAccepted
  rw [chunkAggregator, Option.bind_eq_some_iff] at ran
  obtain ⟨leaves, collected, committed⟩ := ran
  obtain ⟨root, isRoot, rfl⟩ := Option.map_eq_some_iff.mp committed
  obtain ⟨chunks, same, produced⟩ := chunkLeaves_spec sound collected
  rw [same, List.nil_append] at isRoot
  exact ⟨⟨system, chunks⟩, root, rfl, rfl, produced, isRoot⟩

/-! ## Climbing into the trees -/

theorem build_hashes {leaves : List Bytes32} (documented : crates.Documented keccak)
    (built : crates.hashes.build leaves = some root) :
    leaves ≠ [] ∧ MerkleTree.root (hashNewParent keccak) leaves = some root := by
  rw [documented.hashes.build, List.map_id] at built
  refine ⟨?_, built⟩
  rintro rfl
  cases built

/-- A leaf has a path to the root through the pairs above the leaves. -/
theorem exists_path_of_leaf {leaves : List Bytes32} {node : Bytes32} (nonempty : leaves ≠ [])
    (isRoot : MerkleTree.root (hashNewParent keccak) leaves = some root)
    (member : node ∈ nodes keccak nodeBytes (depth leaves) (padded leaves)) :
    ∃ path, fold keccak nodeBytes path node = root ∧
      ∀ message ∈ foldMessages keccak nodeBytes path node, message ∈ pairsAbove keccak leaves := by
  obtain ⟨path, leads, inside⟩ := exists_path nodeBytes_comm (length_padded nonempty) member
  rw [MerkleTree.root, if_neg nonempty, hashNewParent, leads, Option.some.injEq] at isRoot
  exact ⟨path, isRoot, inside⟩

theorem mem_nodes_of_leaf {leaves : List Bytes32} {node : Bytes32} (member : node ∈ leaves) :
    node ∈ nodes keccak nodeBytes (depth leaves) (padded leaves) :=
  mem_nodes_of_level (mem_padded.mpr member)

/-- A path that leads to the root of a tree stays in the tree, or a first part
of it leads to a leaf. -/
theorem fold_cases {leaves path : List Bytes32} {node : Bytes32}
    (isRoot : MerkleTree.root (hashNewParent keccak) leaves =
      some (fold keccak nodeBytes path node))
    (free : Set.InjOn keccak {message | message ∈ pairsAbove keccak leaves ∨
      message ∈ foldMessages keccak nodeBytes path node}) :
    (node ∈ nodes keccak nodeBytes (depth leaves) (padded leaves) ∧
        ∀ message ∈ foldMessages keccak nodeBytes path node,
          message ∈ pairsAbove keccak leaves) ∨
      ∃ message ∈ foldMessages keccak nodeBytes path node, keccak message ∈ leaves := by
  rcases climb_inside (fun _ _ _ _ => nodeBytes_cases) free (root_mem_nodes isRoot) with inside |
    ⟨message, member, leaf⟩
  · exact .inl inside
  · exact .inr ⟨message, member, mem_padded.mp leaf⟩

theorem userProofsAggregator_ok {system : ProvingSystem} {check : ProgramOutput → Bool}
    {proofs : List ProgramOutput} (documented : crates.Documented keccak)
    (committed : userProofsAggregator crates system check proofs = some root.toList) :
    (∀ proof ∈ proofs, check proof = true) ∧ proofs.map (commitment keccak system.id) ≠ [] ∧
      MerkleTree.root (hashNewParent keccak) (proofs.map (commitment keccak system.id)) =
        some root := by
  rw [userProofsAggregator] at committed
  split at committed
  · rename_i checked
    rw [(documented.proofs system.id).build] at committed
    obtain ⟨found, isRoot, same⟩ := Option.map_eq_some_iff.mp committed
    rw [Vector.toList_inj.mp same] at isRoot
    refine ⟨by simpa using checked, ?_, isRoot⟩
    intro none
    rw [none] at isRoot
    cases isRoot
  · cases committed

theorem pairs_subset_hashed {chunk : Chunk} (member : chunk ∈ run.chunks) {message : Bytes}
    (hashed : message ∈ chunk.pairs keccak run.system.id ++ pairsAbove keccak chunk.leaves) :
    message ∈ run.hashed keccak :=
  List.mem_append_right _ (List.mem_flatMap.mpr ⟨chunk, member, hashed⟩)

theorem pairsAbove_subset_hashed {message : Bytes}
    (hashed : message ∈ pairsAbove keccak run.leaves) : message ∈ run.hashed keccak :=
  List.mem_append_left _ (List.mem_append_right _ hashed)

/-- Two siblings have a path to the root through what the programs hash. -/
theorem exists_path_of_siblings {bytes : Bytes} (documented : crates.Documented keccak)
    (produced : run.Produces crates verify root) (siblings : run.Siblings keccak bytes) :
    ∃ path, fold keccak nodeBytes path (keccak bytes) = root ∧
      ∀ message ∈ foldMessages keccak nodeBytes path (keccak bytes),
        message ∈ run.hashed keccak := by
  obtain ⟨nonempty, isRoot⟩ := build_hashes documented produced.root
  rcases siblings with above | ⟨chunk, member, inChunk, first, leads, inside⟩
  · obtain ⟨path, leads, inside⟩ := exists_path_of_leaf nonempty isRoot
      (mem_nodes_of_treeMessages above)
    exact ⟨path, leads, fun message onPath => pairsAbove_subset_hashed (inside message onPath)⟩
  · have leaf : fold keccak nodeBytes first (keccak bytes) ∈ run.leaves :=
      List.mem_flatMap.mpr ⟨chunk, member, leads⟩
    obtain ⟨rest, leadsRest, insideRest⟩ := exists_path_of_leaf nonempty isRoot
      (mem_nodes_of_leaf leaf)
    refine ⟨first ++ rest, by rw [fold_append, leadsRest], ?_⟩
    intro message onPath
    rw [foldMessages_append] at onPath
    rcases List.mem_append.mp onPath with before | after
    · exact pairs_subset_hashed member (List.mem_append_left _ (inside message before))
    · exact pairsAbove_subset_hashed (insideRest message after)

variable {id : UInt16} {proof : ProgramOutput}

/-- Fewer siblings, and siblings of the programs, add no message. -/
theorem free_of_subset {path other : List Bytes32}
    (free : Set.InjOn keccak {message | message ∈ run.hashedForInclusion keccak path id proof})
    (subset : ∀ message ∈ foldMessages keccak nodeBytes other (commitment keccak id proof),
      message ∈ foldMessages keccak nodeBytes path (commitment keccak id proof) ∨
        message ∈ run.hashed keccak) :
    Set.InjOn keccak {message | message ∈ run.hashedForInclusion keccak other id proof} := by
  apply free.mono
  intro message hashed
  rcases List.mem_append.mp hashed with inRun | climbed
  · exact List.mem_append_left _ inRun
  · rcases subset message climbed with onPath | inRun
    · exact List.mem_append_right _ onPath
    · exact List.mem_append_left _ (List.mem_cons_of_mem _ inRun)

theorem own_hashed (path : List Bytes32) :
    commitmentBytes id proof ∈ run.hashedForInclusion keccak path id proof :=
  List.mem_append_left _ List.mem_cons_self

theorem run_hashed (path : List Bytes32) {message : Bytes} (hashed : message ∈ run.hashed keccak) :
    message ∈ run.hashedForInclusion keccak path id proof :=
  List.mem_append_left _ (List.mem_cons_of_mem _ hashed)

/-- What a proof can be whose commitment leads to a leaf of a chunk. -/
theorem verified_of_leaf {chunk : Chunk} {path : List Bytes32}
    (documented : crates.Documented keccak) (produced : run.Produces crates verify root)
    (member : chunk ∈ run.chunks)
    (free : Set.InjOn keccak {message | message ∈ run.hashedForInclusion keccak path id proof})
    (leads : fold keccak nodeBytes path (commitment keccak id proof) ∈ chunk.leaves) :
    (id = run.system.id ∧ proof ∈ run.verified) ∨ run.Confusable keccak id proof := by
  obtain ⟨chunkRoot, committed, built⟩ := produced.chunks chunk member
  obtain ⟨-, -, isRoot⟩ := userProofsAggregator_ok documented committed
  obtain ⟨nonempty, isLeavesRoot⟩ := build_hashes documented built
  obtain ⟨rest, leadsRest, insideRest⟩ := exists_path_of_leaf nonempty isLeavesRoot
    (mem_nodes_of_leaf leads)
  have joined : fold keccak nodeBytes (path ++ rest) (commitment keccak id proof) = chunkRoot := by
    rw [fold_append, leadsRest]
  have wholeFree : Set.InjOn keccak
      {message | message ∈ run.hashedForInclusion keccak (path ++ rest) id proof} := by
    apply free_of_subset free
    intro message climbed
    rw [foldMessages_append] at climbed
    rcases List.mem_append.mp climbed with before | after
    · exact .inl before
    · exact .inr (pairs_subset_hashed member (List.mem_append_right _ (insideRest message after)))
  have inPairs : ∀ message ∈ chunk.pairs keccak run.system.id,
      message ∈ run.hashedForInclusion keccak (path ++ rest) id proof := fun message hashed =>
    run_hashed _ (pairs_subset_hashed member (List.mem_append_left _ hashed))
  have leafHashed : ∀ other ∈ chunk.proofs, other ∈ run.verified ∧
      commitmentBytes run.system.id other ∈
        run.hashedForInclusion keccak (path ++ rest) id proof := by
    intro other inChunk
    have verified : other ∈ run.verified := List.mem_flatMap.mpr ⟨chunk, member, inChunk⟩
    refine ⟨verified, run_hashed _ ?_⟩
    exact List.mem_append_left _ (List.mem_append_left _ (List.mem_map_of_mem verified))
  have cases := fold_cases (joined ▸ isRoot) (wholeFree.mono fun message hashed =>
    hashed.elim (inPairs message) (List.mem_append_right _))
  rcases cases with ⟨node, inside⟩ | ⟨message, climbed, leaf⟩
  · rcases mem_nodes node with leaf | ⟨left, -, right, -, hashed, same⟩
    · obtain ⟨other, inChunk, same⟩ := List.mem_map.mp (mem_padded.mp leaf)
      obtain ⟨verified, otherHashed⟩ := leafHashed other inChunk
      obtain ⟨rfl, rfl⟩ := commitmentBytes_injective (wholeFree otherHashed (own_hashed _) same)
      exact .inl ⟨rfl, verified⟩
    · -- The proof is hashed like two siblings of the chunk's tree.
      refine .inr (.inl (.inr ⟨chunk, member, ?_, path, leads, ?_⟩))
      · rw [wholeFree (own_hashed _) (inPairs _ hashed) same]
        exact hashed
      · intro message onFirst
        apply inside message
        rw [foldMessages_append]
        exact List.mem_append_left _ onFirst
  · -- A verified proof is hashed like a pair of nodes on the way.
    obtain ⟨other, inChunk, same⟩ := List.mem_map.mp leaf
    have equal := wholeFree (leafHashed other inChunk).2 (List.mem_append_right _ climbed) same
    exact .inr (.inr ⟨chunk, member, path, rest, wholeFree, leads, other, inChunk,
      equal ▸ climbed⟩)

/-- What a proof can be whose commitment leads to the root. -/
theorem verified_of_root {path : List Bytes32} (documented : crates.Documented keccak)
    (produced : run.Produces crates verify root)
    (free : Set.InjOn keccak {message | message ∈ run.hashedForInclusion keccak path id proof})
    (leads : fold keccak nodeBytes path (commitment keccak id proof) = root) :
    (id = run.system.id ∧ proof ∈ run.verified) ∨ run.Confusable keccak id proof := by
  obtain ⟨nonempty, isRoot⟩ := build_hashes documented produced.root
  have inPairs : ∀ message ∈ pairsAbove keccak run.leaves,
      message ∈ run.hashedForInclusion keccak path id proof := fun message hashed =>
    run_hashed _ (pairsAbove_subset_hashed hashed)
  have cases := fold_cases (leads ▸ isRoot) (free.mono fun message hashed =>
    hashed.elim (inPairs message) (List.mem_append_right _))
  rcases cases with ⟨node, -⟩ | ⟨message, climbed, leaf⟩
  · rcases mem_nodes node with leaf | ⟨left, -, right, -, hashed, same⟩
    · obtain ⟨chunk, member, inChunk⟩ := List.mem_flatMap.mp (mem_padded.mp leaf)
      refine verified_of_leaf documented produced member (free_of_subset free ?_)
        (show fold keccak nodeBytes [] _ ∈ _ from inChunk)
      intro message none
      cases none
    · refine .inr (.inl (.inl ?_))
      rw [free (own_hashed _) (inPairs _ hashed) same]
      exact hashed
  · obtain ⟨before, after, rfl, leadsBefore, -⟩ := exists_prefix climbed
    rw [← leadsBefore] at leaf
    obtain ⟨chunk, member, inChunk⟩ := List.mem_flatMap.mp leaf
    refine verified_of_leaf documented produced member (free_of_subset free ?_) inChunk
    intro other onFirst
    rw [foldMessages_append]
    exact .inl (List.mem_append_left _ onFirst)

/-- A proof that can be confused has a path to the root. -/
theorem exists_path_of_confusable (documented : crates.Documented keccak)
    (produced : run.Produces crates verify root)
    (free : Set.InjOn keccak {message | message ∈ run.hashedForInclusion keccak [] id proof})
    (confusable : run.Confusable keccak id proof) :
    ∃ path, fold keccak nodeBytes path (commitment keccak id proof) = root ∧
      Set.InjOn keccak {message | message ∈ run.hashedForInclusion keccak path id proof} := by
  rcases confusable with siblings | ⟨chunk, member, before, after, wholeFree, leads, -⟩
  · obtain ⟨path, leads, inside⟩ := exists_path_of_siblings documented produced siblings
    exact ⟨path, leads, free_of_subset free fun message onPath => .inr (inside message onPath)⟩
  · obtain ⟨nonempty, isRoot⟩ := build_hashes documented produced.root
    have leaf : fold keccak nodeBytes before (commitment keccak id proof) ∈ run.leaves :=
      List.mem_flatMap.mpr ⟨chunk, member, leads⟩
    obtain ⟨rest, leadsRest, insideRest⟩ := exists_path_of_leaf nonempty isRoot
      (mem_nodes_of_leaf leaf)
    refine ⟨before ++ rest, by rw [fold_append, leadsRest], free_of_subset wholeFree ?_⟩
    intro message onPath
    rw [foldMessages_append] at onPath
    rcases List.mem_append.mp onPath with first | later
    · left
      rw [foldMessages_append]
      exact List.mem_append_left _ first
    · exact .inr (pairsAbove_subset_hashed (insideRest message later))

/-- Only 64 bytes can be a pair of nodes. -/
theorem ne_nodeBytes_of_length (length : proof.publicInputs.length ≠ 30) (left right : Bytes32) :
    commitmentBytes id proof ≠ nodeBytes left right := by
  intro same
  have lengths := congrArg List.length same
  rw [length_commitmentBytes, length_nodeBytes] at lengths
  omega

/-- Public inputs of other lengths than 30 bytes leave nothing to confuse. -/
theorem not_confusable_of_length (length : proof.publicInputs.length ≠ 30)
    (lengths : ∀ other ∈ run.verified, other.publicInputs.length ≠ 30) :
    ¬ run.Confusable keccak id proof := by
  have notPair : ∀ leaves, commitmentBytes id proof ∉ pairsAbove keccak leaves := by
    intro leaves hashed
    obtain ⟨left, right, same⟩ := exists_pair_of_treeMessages hashed
    exact ne_nodeBytes_of_length length left right same
  rintro ((above | ⟨chunk, -, inChunk, -⟩) |
    ⟨chunk, member, before, after, -, -, other, inChunk, climbed⟩)
  · exact notPair _ above
  · exact notPair _ inChunk
  · obtain ⟨left, right, same⟩ := mem_climbMessages climbed
    have verified : other ∈ run.verified := List.mem_flatMap.mpr ⟨chunk, member, inChunk⟩
    exact ne_nodeBytes_of_length (lengths other verified) left right same

end Soundness

open AlignedProofAggregationService in
/-- A stored root is the root of an aggregation, and a proof whose inclusion is
accepted against it was verified in the aggregation, exactly if the proof was
verified or cannot be confused with nodes of the trees. -/
theorem verifyProofInclusion_sound_iff (keccak : Bytes → Bytes32) (crates : Crates)
    (documented : crates.Documented keccak)
    (processProofCalldata : List Bytes32 → Bytes32 → Bytes32)
    (sortedPairs : ProcessesSortedPairs keccak processProofCalldata)
    (verify : ProvingSystem → ProgramOutput → Bool) (verifiers : Verifiers) (deployed : State)
    (fresh : ∀ root, deployed.aggregatedProofs root = false)
    (sound : SoundVerifiers crates verify (Accepted verifiers deployed)) (calls : List Call)
    (root : Bytes32)
    (stored : (AlignedProofAggregationService.run verifiers deployed calls).aggregatedProofs root =
      true) :
    (∃ run : AggregationRun, run.Produces crates verify root) ∧
      ∀ run : AggregationRun, run.Produces crates verify root →
        ∀ (provingSystemId : UInt16) (programId : Bytes32) (publicInputs : Bytes),
          Set.InjOn keccak {message | message ∈ run.hashedForInclusion keccak [] provingSystemId
            ⟨programId, publicInputs⟩} →
          ((∀ merklePath, Set.InjOn keccak {message | message ∈ run.hashedForInclusion keccak
                merklePath provingSystemId ⟨programId, publicInputs⟩} →
              AlignedProofAggregationService.verifyProofInclusion keccak processProofCalldata
                merklePath provingSystemId programId publicInputs
                (AlignedProofAggregationService.run verifiers deployed calls) = true →
              processProofCalldata merklePath (commitment keccak provingSystemId
                ⟨programId, publicInputs⟩) = root →
              provingSystemId = run.system.id ∧ ⟨programId, publicInputs⟩ ∈ run.verified) ↔
            ((provingSystemId = run.system.id ∧ ⟨programId, publicInputs⟩ ∈ run.verified) ∨
              ¬ run.Confusable keccak provingSystemId ⟨programId, publicInputs⟩)) := by
  have processed : ∀ path leaf, processProofCalldata path leaf = fold keccak nodeBytes path leaf := by
    intro path leaf
    rw [sortedPairs, fold_eq_foldl, hashNewParent]
  constructor
  · obtain ⟨system, output, accepted, decoded⟩ :=
      (storesAccepted_run fresh calls).stored root stored
    obtain ⟨run, committed, rfl, -, produced⟩ := produces_of_accepted sound accepted
    rw [decodeBytes32_toList, Except.ok.injEq] at decoded
    exact ⟨run, decoded ▸ produced⟩
  · intro run produced provingSystemId programId publicInputs free
    constructor
    · intro included
      by_cases confusable : run.Confusable keccak provingSystemId ⟨programId, publicInputs⟩
      · left
        obtain ⟨path, leads, pathFree⟩ :=
          exists_path_of_confusable documented produced free confusable
        apply included path pathFree
        · rw [AlignedProofAggregationService.verifyProofInclusion, processed, leads]
          exact stored
        · rw [processed, leads]
      · exact .inr confusable
    · rintro (verified | notConfusable) merklePath pathFree - leads
      · exact verified
      · rw [processed] at leads
        rcases verified_of_root documented produced pathFree leads with verified | confusable
        · exact verified
        · exact absurd confusable notConfusable

namespace Sample

open AlignedProofAggregationService

def crates : Crates :=
  { proofs := fun id => .reference (commitment Keccak256.keccak256 id)
      (hashNewParent Keccak256.keccak256)
    hashes := .reference id (hashNewParent Keccak256.keccak256) }

theorem crates_documented : crates.Documented Keccak256.keccak256 where
  proofs _ := MerkleTreeCrate.reference_documented _ _
  hashes := MerkleTreeCrate.reference_documented _ _

/-- Two proofs of one program, of which the first has a commitment that starts
with the bytes of SP1's identifier. -/
def userProofs : List ProgramOutput :=
  [⟨Bytes32.zero, [0x00, 0x8a, 0x48]⟩, ⟨Bytes32.zero, [0x00]⟩]

def userLeaves : List Bytes32 :=
  userProofs.map (commitment Keccak256.keccak256 1)

def aggregatedRoot : Bytes32 :=
  fold Keccak256.keccak256 nodeBytes (userLeaves.drop 1) (userLeaves.headD Bytes32.zero)

def aggregation : AggregationRun :=
  { system := sp1
    chunks := [⟨userProofs, userLeaves⟩] }

/-- The proof of the user-proofs aggregator for the two proofs. -/
def chunkProof : ProgramOutput :=
  ⟨sp1.userProofsAggregator, aggregatedRoot.toList⟩

def verify (system : ProvingSystem) (proof : ProgramOutput) : Bool :=
  system = sp1 ∧ (proof ∈ userProofs ∨ proof = chunkProof)

/-- The verifier of SP1 accepts the root of the aggregation only. -/
def verifiers : Verifiers :=
  { sp1VerifyProof := fun _ _ values _ => values = aggregatedRoot.toList
    risc0Verify := fun _ _ _ _ => false
    sha256 := fun _ => Bytes32.zero }

def deployedService : State :=
  { aggregatedProofs := fun _ => false
    sp1VerifierAddress := 1
    alignedAggregatorAddress := 2
    risc0VerifierAddress := 3
    risc0AggregatorProgramImageId := Bytes32.zero
    sp1AggregatorProgramVKHash := Bytes32.zero }

def storeRoot : List Call :=
  [.verifySP1 2 aggregatedRoot.toList []]

/-- The two leaves, read as the identifier of SP1, a program and 30 bytes of
public inputs. -/
def forged : ProgramOutput :=
  { programId :=
      #v[0x6f, 0x0b, 0xb5, 0xdf, 0xd3, 0xd5, 0x61, 0xb1, 0x13, 0x8b, 0x84, 0xa7, 0x53, 0xe8, 0xc6,
        0x34, 0xab, 0xd5, 0xe3, 0x93, 0x19, 0x14, 0x34, 0xf6, 0xc7, 0x84, 0x47, 0xc9, 0xa9, 0xef,
        0xa5, 0x1b]
    publicInputs :=
      [0xf4, 0x20, 0xd2, 0xde, 0xad, 0x78, 0x1f, 0x70, 0x4b, 0x1c, 0x7f, 0x46, 0x9c, 0x4e, 0x18,
        0xbf, 0x14, 0x0e, 0x12, 0x17, 0xdc, 0x8c, 0x7a, 0x75, 0xf2, 0x6a, 0xbb, 0xae, 0xfa, 0x4b] }

/-- What is hashed for the aggregation, without repetitions. -/
def distinctMessages : List Bytes :=
  userProofs.map (commitmentBytes 1) ++
    [nodeBytes (userLeaves.headD Bytes32.zero) (userLeaves.getLastD Bytes32.zero)]

theorem userProofs_aggregated : userProofsAggregator crates sp1 (verify sp1) userProofs =
    some aggregatedRoot.toList := by
  decide +kernel

theorem userLeaves_aggregated : crates.hashes.build userLeaves = some aggregatedRoot := by
  decide +kernel

theorem aggregation_produces : aggregation.Produces crates verify aggregatedRoot := by
  constructor
  · intro chunk member
    cases List.mem_singleton.mp member
    exact ⟨aggregatedRoot, userProofs_aggregated, userLeaves_aggregated⟩
  · rw [AggregationRun.leaves, aggregation, List.flatMap_singleton]
    exact userLeaves_aggregated

theorem sound : SoundVerifiers crates verify (Accepted verifiers deployedService) := by
  constructor
  · intro system proof verified program
    obtain ⟨rfl, isUser | rfl⟩ := of_decide_eq_true verified
    · rcases List.mem_cons.mp isUser with rfl | second
      · exact absurd program (by decide +kernel)
      · cases List.mem_singleton.mp second
        exact absurd program (by decide +kernel)
    · exact ⟨userProofs, userProofs_aggregated⟩
  · rintro system output (⟨rfl, proof, accepted⟩ | ⟨-, receipt, accepted⟩)
    · rw [of_decide_eq_true accepted]
      exact ⟨[(chunkProof, userLeaves)], by decide +kernel⟩
    · cases accepted

end Sample

theorem verifyProofInclusion_sound_iff_otherInputs :
    (∃ run : AggregationRun, run.Produces Sample.crates Sample.verify Sample.aggregatedRoot) ∧
      ∀ merklePath, Set.InjOn Keccak256.keccak256 {message | message ∈
          Sample.aggregation.hashedForInclusion Keccak256.keccak256 merklePath 1
            ⟨Bytes32.zero, [0x01]⟩} →
        AlignedProofAggregationService.verifyProofInclusion Keccak256.keccak256
            (fun path leaf => path.foldl (hashNewParent Keccak256.keccak256) leaf) merklePath 1
            Bytes32.zero [0x01] (AlignedProofAggregationService.run Sample.verifiers
              Sample.deployedService Sample.storeRoot) = true →
        merklePath.foldl (hashNewParent Keccak256.keccak256)
            (commitment Keccak256.keccak256 1 ⟨Bytes32.zero, [0x01]⟩) = Sample.aggregatedRoot →
          1 = sp1.id ∧ ⟨Bytes32.zero, [0x01]⟩ ∈ Sample.aggregation.verified := by
  have free : Set.InjOn Keccak256.keccak256 {message | message ∈
      Sample.aggregation.hashedForInclusion Keccak256.keccak256 [] 1
        ⟨Bytes32.zero, [0x01]⟩} := by
    refine @injOn_of_nodup _ _ _ _
      (commitmentBytes 1 ⟨Bytes32.zero, [0x01]⟩ :: Sample.distinctMessages) ?_ ?_
    · decide +kernel
    · decide +kernel
  obtain ⟨aggregated, sound⟩ := verifyProofInclusion_sound_iff Keccak256.keccak256 Sample.crates
    Sample.crates_documented _ (fun _ _ => rfl) Sample.verify Sample.verifiers
    Sample.deployedService (fun _ => rfl) Sample.sound Sample.storeRoot Sample.aggregatedRoot
    (by decide +kernel)
  refine ⟨aggregated, ?_⟩
  apply (sound Sample.aggregation Sample.aggregation_produces 1 Bytes32.zero [0x01] free).mpr
  exact .inr (not_confusable_of_length (by decide) (by decide +kernel))

/-- The root of the two proofs is the commitment of the forged one, so the
empty path is accepted. -/
theorem forged_proof_included :
    SoundVerifiers Sample.crates Sample.verify
        (AlignedProofAggregationService.Accepted Sample.verifiers Sample.deployedService) ∧
      Sample.aggregation.Produces Sample.crates Sample.verify Sample.aggregatedRoot ∧
      (AlignedProofAggregationService.run Sample.verifiers Sample.deployedService
        Sample.storeRoot).aggregatedProofs Sample.aggregatedRoot = true ∧
      Set.InjOn Keccak256.keccak256 {message | message ∈
        Sample.aggregation.hashedForInclusion Keccak256.keccak256 [] 1 Sample.forged} ∧
      AlignedProofAggregationService.verifyProofInclusion Keccak256.keccak256
        (fun path leaf => path.foldl (hashNewParent Keccak256.keccak256) leaf) [] 1
        Sample.forged.programId Sample.forged.publicInputs
        (AlignedProofAggregationService.run Sample.verifiers Sample.deployedService
          Sample.storeRoot) = true ∧
      commitment Keccak256.keccak256 1 Sample.forged = Sample.aggregatedRoot ∧
      ∀ run : AggregationRun, run.Produces Sample.crates Sample.verify Sample.aggregatedRoot →
        Sample.forged ∉ run.verified := by
  refine ⟨Sample.sound, Sample.aggregation_produces, by decide +kernel, ?_, by decide +kernel,
    by decide +kernel, ?_⟩
  · refine @injOn_of_nodup _ _ _ _ Sample.distinctMessages ?_ ?_
    · decide +kernel
    · decide +kernel
  · intro run produced member
    obtain ⟨chunk, isChunk, inChunk⟩ := List.mem_flatMap.mp member
    obtain ⟨chunkRoot, committed, -⟩ := produced.chunks chunk isChunk
    have checked := (userProofsAggregator_ok Sample.crates_documented committed).1 _ inChunk
    obtain ⟨-, isUser | isChunkProof⟩ := of_decide_eq_true checked
    · exact absurd isUser (by decide +kernel)
    · exact absurd (congrArg ProgramOutput.programId isChunkProof) (by decide +kernel)

end AggregationMode

end AlignedLayer
