import AlignedLayer.AggregationMode.BlobCapacity
import AlignedLayer.AggregationMode.BlobLookup
import AlignedLayer.AggregationMode.RootAgreement
import Mathlib.Data.List.Forall2

/-!
# Every aggregated proof is found

Whatever blobs other transactions carry, the SDK reaches the leaves of each
accepted aggregation from its event.  So it reports every aggregated proof with
a path that the contract accepts, and no other proof.
-/

namespace AlignedLayer

open AggregationMode

/-- The only element with a property is the one that is found. -/
theorem find?_eq_of_unique {Item : Type} {wanted : Item → Bool} {items : List Item} {item : Item}
    (member : item ∈ items) (holds : wanted item = true)
    (unique : ∀ other ∈ items, wanted other = true → other = item) :
    items.find? wanted = some item := by
  cases found : items.find? wanted with
  | none => exact absurd holds (List.find?_eq_none.mp found item member)
  | some other =>
      rw [unique other (List.mem_of_find?_eq_some found) (List.find?_some found)]

/-- What is decoded from the blob of nonzero leaves. -/
theorem decodedBlob_of_constructBlob {leaves : List Bytes32} {blob : Bytes}
    (constructed : constructBlob leaves = some blob)
    (nonzero : ∀ leaf ∈ leaves, leaf ≠ Bytes32.zero) : decodedBlob blob = leaves := by
  have fits : leaves.length ≤ 3968 := by
    by_contra many
    rw [constructBlob_eq_none (Nat.not_le.mp many)] at constructed
    cases constructed
  obtain ⟨zeros, written, -⟩ := constructBlob_eq fits
  rw [written, Option.some.injEq] at constructed
  subst constructed
  obtain ⟨behind, read⟩ := unpadded_chunks (leaves.flatMap fun leaf => leaf.toList)
    (List.replicate zeros 0) (Nat.zero_mod 32)
  obtain ⟨fewer, blank⟩ := unpadded_zeros
    (0 + 32 * (chunks 31 (leaves.flatMap fun leaf => leaf.toList)).length) zeros
  rw [decodedBlob, BlobDecoder.loop_eq, read, blank, List.append_assoc,
    List.replicate_append_replicate, BlobDecoder.takeAll_leaves nonzero, List.nil_append]
  exact BlobDecoder.takeAll_zeros leaves 0 _

/-! ## What the service sends -/

/-- The leaves have the root that the public output starts with. -/
def Honest (keccak : Bytes → Bytes32) (leaves : List Bytes32)
    (call : AlignedProofAggregationService.Call) : Prop :=
  ∀ root, call.merkleRoot = .ok root →
    MerkleTree.root (hashNewParent keccak) leaves = some root

/-- The call that is sent for an aggregated proof. -/
def ZKVMEngine.call (engine : ZKVMEngine) (sender : Address) (proof : Bytes)
    (aggregatedProof : ProgramOutput) : AlignedProofAggregationService.Call :=
  match engine with
  | .sp1 => .verifySP1 sender aggregatedProof.publicInputs proof
  | .risc0 => .verifyRisc0 sender proof aggregatedProof.publicInputs

/-- The root of an aggregation is read from the proof of the chunks. -/
theorem readMerkleRoot_of_aggregateProofs {engine : ZKVMEngine} {keccak : Bytes → Bytes32}
    {crates : Crates} {client : ProvingClient} {verify : ProgramOutput → Bool}
    {proofs : List AlignedProof} {proofsPerChunk : UInt16} {aggregatedProof : ProgramOutput}
    {root : Bytes32}
    (aggregated : engine.aggregateProofs keccak crates client verify proofs proofsPerChunk =
      .ok (aggregatedProof, root)) :
    engine.readMerkleRoot aggregatedProof.publicInputs = .ok root := by
  simp only [ZKVMEngine.aggregateProofs] at aggregated
  split at aggregated
  · cases aggregated
  · simp only [bind_eq_ok] at aggregated
    obtain ⟨aggProofs, -, aggProof, -, merkleRoot, read, same⟩ := aggregated
    cases same
    exact read

theorem merkleRoot_of_readMerkleRoot {engine : ZKVMEngine} {sender : Address} {proof : Bytes}
    {aggregatedProof : ProgramOutput} {root : Bytes32}
    (read : engine.readMerkleRoot aggregatedProof.publicInputs = .ok root) :
    (engine.call sender proof aggregatedProof).merkleRoot = .ok root := by
  cases engine with
  | sp1 =>
      simp only [ZKVMEngine.readMerkleRoot] at read
      split at read
      · rename_i word decoded
        cases read
        simp only [ZKVMEngine.call, AlignedProofAggregationService.Call.merkleRoot,
          AlignedProofAggregationService.decodeBytes32, decoded]
      · cases read
  | risc0 =>
      simp only [ZKVMEngine.readMerkleRoot] at read
      split at read
      · rename_i word decoded
        cases read
        have bytes : aggregatedProof.publicInputs.take 32 = aggregatedProof.publicInputs := by
          apply List.take_of_length_le
          by_contra long
          rw [Bytes32.ofSlice, dif_neg (by rw [List.size_toArray]; omega)] at decoded
          cases decoded
        simp only [ZKVMEngine.call, AlignedProofAggregationService.Call.merkleRoot,
          AlignedProofAggregationService.decodeBytes32, bytes, decoded]
      · cases read

theorem root_of_computeProofsMerkleRoot {proofsCrate : MerkleTreeCrate AlignedProof Bytes32}
    {keccak : Bytes → Bytes32}
    (hostDocumented : proofsCrate.Documented (AlignedProof.commitment keccak)
      (hashNewParent keccak)) {proofs : List AlignedProof} {root : Bytes32}
    {leaves : List Bytes32}
    (computed : computeProofsMerkleRoot proofsCrate keccak proofs = some (root, leaves)) :
    MerkleTree.root (hashNewParent keccak) leaves = some root := by
  rw [leaves_of_computeProofsMerkleRoot computed, ← hostDocumented.build]
  obtain ⟨built, isBuilt, same⟩ := Option.bind_eq_some_iff.mp computed
  cases same
  exact isBuilt

/-- The leaves and the call of a run of the service that has passed its checks. -/
inductive Submits (keccak : Bytes → Bytes32) :
    List Bytes32 → AlignedProofAggregationService.Call → Prop
  | run {engine : ZKVMEngine} {crates : Crates} {client : ProvingClient}
      {verify : ProgramOutput → Bool} {proofsCrate : MerkleTreeCrate AlignedProof Bytes32}
      {proofs : List AlignedProof} {proofsPerChunk : UInt16} {root : Bytes32}
      {leaves : List Bytes32} {aggregatedProof : ProgramOutput} (sender : Address) (proof : Bytes)
      (documented : proofsCrate.Documented (AlignedProof.commitment keccak)
        (hashNewParent keccak))
      (computed : computeProofsMerkleRoot proofsCrate keccak proofs = some (root, leaves))
      (aggregated : engine.aggregateProofs keccak crates client verify proofs proofsPerChunk =
        .ok (aggregatedProof, root)) :
      Submits keccak leaves (engine.call sender proof aggregatedProof)

theorem Submits.honest {keccak : Bytes → Bytes32} {leaves : List Bytes32}
    {call : AlignedProofAggregationService.Call} (submits : Submits keccak leaves call) :
    Honest keccak leaves call := by
  cases submits with
  | run sender proof documented computed aggregated =>
      intro other isOther
      rw [merkleRoot_of_readMerkleRoot (readMerkleRoot_of_aggregateProofs aggregated)] at isOther
      cases isOther
      exact root_of_computeProofsMerkleRoot documented computed

/-- How the chain answers anything else makes no difference to the service. -/
theorem submits_of_aggregateAndSubmit {engine : ZKVMEngine} {keccak : Bytes → Bytes32}
    {crates : Crates} {proofsCrate : MerkleTreeCrate AlignedProof Bytes32}
    (hostDocumented : proofsCrate.Documented (AlignedProof.commitment keccak)
      (hashNewParent keccak))
    {client : ProvingClient} {verify : ProgramOutput → Bool}
    {submit submit' : Bytes → ProgramOutput → Option String} (sender : Address) (proof : Bytes)
    (agree : ∀ leaves blobData aggregatedProof, constructBlob leaves = some blobData →
      Submits keccak leaves (engine.call sender proof aggregatedProof) →
      submit blobData aggregatedProof = submit' blobData aggregatedProof)
    (proofsPerChunk : UInt16)
    (fetched : Except FetchFailure (List (NewBatchV3 × AlignedProof) × Nat)) :
    aggregateAndSubmitProofsOnChain engine keccak crates proofsCrate client verify submit
        proofsPerChunk fetched =
      aggregateAndSubmitProofsOnChain engine keccak crates proofsCrate client verify submit'
        proofsPerChunk fetched := by
  unfold aggregateAndSubmitProofsOnChain
  cases fetched with
  | error failure => rfl
  | ok result =>
      obtain ⟨logged, stop⟩ := result
      dsimp only
      split
      · rfl
      · cases computed : computeProofsMerkleRoot proofsCrate keccak (logged.map Prod.snd) with
        | none => rfl
        | some host =>
            obtain ⟨merkleRoot, leaves⟩ := host
            dsimp only
            cases aggregated : engine.aggregateProofs keccak crates client verify
                (logged.map Prod.snd) proofsPerChunk with
            | error error => rfl
            | ok output =>
                obtain ⟨aggregatedProof, zkvmMerkleRoot⟩ := output
                dsimp only
                split
                · rfl
                · rename_i same
                  rw [not_not] at same
                  subst same
                  cases constructed : constructBlob leaves with
                  | none => rfl
                  | some blobData =>
                      dsimp only
                      rw [agree leaves blobData aggregatedProof constructed
                        (.run sender proof hostDocumented computed aggregated)]

/-! ## The chain -/

namespace BlobChain

variable {verifiers : AlignedProofAggregationService.Verifiers} {keccak sha256 : Bytes → Bytes32}
  {kzg : Bytes → Bytes} {state next finish : State} {label : Label}

/-- The aggregations are those of the service, and no leaf is the word that
ends a blob. -/
def OfService (keccak : Bytes → Bytes32) (_ : State) (label : Label) : Prop :=
  ∀ transaction ∈ label.transactions, ∀ leaves call,
    transaction = .aggregation leaves call →
      Submits keccak leaves call ∧ ∀ leaf ∈ leaves, leaf ≠ Bytes32.zero

/-- What is known of an accepted aggregation. -/
structure Recorded (keccak : Bytes → Bytes32) (contract : AlignedProofAggregationService.State)
    (blobs : List Bytes) (aggregation : Bytes32 × List Bytes32) : Prop where
  root : MerkleTree.root (hashNewParent keccak) aggregation.2 = some aggregation.1
  nonzero : ∀ leaf ∈ aggregation.2, leaf ≠ Bytes32.zero
  blob : ∃ blob ∈ blobs, constructBlob aggregation.2 = some blob
  stored : contract.aggregatedProofs aggregation.1 = true

structure Consistent (keccak : Bytes → Bytes32) (state : State) : Prop where
  number_le : ∀ block ∈ state.blocks, block.number ≤ state.blocks.length
  ordered : state.blocks.Pairwise fun earlier later =>
    earlier.number < later.number ∧ earlier.slot < later.slot ∧
      earlier.parentRoot ≠ later.parentRoot
  recorded : ∀ block ∈ state.blocks, ∀ aggregation ∈ block.verified,
    Recorded keccak state.contract block.blobs aggregation

theorem Recorded.mono {contract later : AlignedProofAggregationService.State}
    {blobs more : List Bytes} {aggregation : Bytes32 × List Bytes32}
    (recorded : Recorded keccak contract blobs aggregation)
    (keeps : ∀ root, contract.aggregatedProofs root = true → later.aggregatedProofs root = true)
    (subset : blobs ⊆ more) : Recorded keccak later more aggregation where
  root := recorded.root
  nonzero := recorded.nonzero
  blob := by
    obtain ⟨blob, member, constructed⟩ := recorded.blob
    exact ⟨blob, subset member, constructed⟩
  stored := keeps _ recorded.stored

/-- An accepted call stores its root, and no root is ever removed. -/
theorem execute_stores {contract later : AlignedProofAggregationService.State}
    {call : AlignedProofAggregationService.Call}
    (executed : AlignedProofAggregationService.execute verifiers contract call = .ok later) :
    (∀ root, contract.aggregatedProofs root = true → later.aggregatedProofs root = true) ∧
      ∀ root, call.merkleRoot = .ok root → later.aggregatedProofs root = true := by
  have stored : ∀ root, call.merkleRoot = .ok root → later = contract.store root := by
    intro root isRoot
    cases call with
    | verifySP1 sender values proof =>
        simp only [AlignedProofAggregationService.Call.merkleRoot] at isRoot
        simp only [AlignedProofAggregationService.execute,
          AlignedProofAggregationService.verifySP1, isRoot] at executed
        repeat' split at executed
        all_goals cases executed
        rfl
    | verifyRisc0 sender receipt journal =>
        simp only [AlignedProofAggregationService.Call.merkleRoot] at isRoot
        simp only [AlignedProofAggregationService.execute,
          AlignedProofAggregationService.verifyRisc0, isRoot] at executed
        repeat' split at executed
        all_goals cases executed
        rfl
  refine ⟨?_, ?_⟩
  · intro root isStored
    obtain ⟨-, -, written, -, -, rfl⟩ := AlignedProofAggregationService.execute_cases executed
    by_cases same : root = written
    · simp [AlignedProofAggregationService.State.store, same]
    · simpa [AlignedProofAggregationService.State.store, same] using isStored
  · intro root isRoot
    rw [stored root isRoot]
    simp [AlignedProofAggregationService.State.store]

/-- The transactions of a block so far. -/
structure Executed (keccak : Bytes → Bytes32) (start : AlignedProofAggregationService.State)
    (state : AlignedProofAggregationService.State × List Bytes × List (Bytes32 × List Bytes32)) :
    Prop where
  keeps : ∀ root, start.aggregatedProofs root = true → state.1.aggregatedProofs root = true
  recorded : ∀ aggregation ∈ state.2.2, Recorded keccak state.1 state.2.1 aggregation

theorem Executed.execute {start : AlignedProofAggregationService.State}
    {state : AlignedProofAggregationService.State × List Bytes × List (Bytes32 × List Bytes32)}
    {transaction : Transaction} (executed : Executed keccak start state)
    (sent : ∀ leaves call, transaction = .aggregation leaves call →
      Submits keccak leaves call ∧ ∀ leaf ∈ leaves, leaf ≠ Bytes32.zero) :
    Executed keccak start (execute verifiers transaction state) := by
  have moreBlobs : ∀ blob, Executed keccak start (state.1, state.2.1 ++ [blob], state.2.2) :=
    fun blob => ⟨executed.keeps, fun aggregation member =>
      (executed.recorded aggregation member).mono (fun _ => id) (List.subset_append_left _ _)⟩
  cases transaction with
  | other blob => exact moreBlobs blob
  | aggregation leaves call =>
      obtain ⟨submits, nonzero⟩ := sent leaves call rfl
      rw [BlobChain.execute]
      cases constructed : constructBlob leaves with
      | none => exact executed
      | some blob =>
          dsimp only
          split
          · rename_i later merkleRoot accepted isRoot
            obtain ⟨keeps, stores⟩ := execute_stores accepted
            refine ⟨fun root stored => keeps root (executed.keeps root stored), ?_⟩
            intro aggregation member
            rcases List.mem_append.mp member with before | new
            · exact (executed.recorded aggregation before).mono keeps
                (List.subset_append_left _ _)
            · rw [List.mem_singleton.mp new]
              exact {
                root := submits.honest merkleRoot isRoot
                nonzero := nonzero
                blob := ⟨blob, by simp, constructed⟩
                stored := stores merkleRoot isRoot }
          · exact moreBlobs blob

theorem Executed.foldl {start : AlignedProofAggregationService.State}
    {state : AlignedProofAggregationService.State × List Bytes × List (Bytes32 × List Bytes32)}
    (transactions : List Transaction) (executed : Executed keccak start state)
    (sent : ∀ transaction ∈ transactions, ∀ leaves call,
      transaction = .aggregation leaves call →
        Submits keccak leaves call ∧ ∀ leaf ∈ leaves, leaf ≠ Bytes32.zero) :
    Executed keccak start (transactions.foldl
      (fun state transaction => BlobChain.execute verifiers transaction state) state) := by
  induction transactions generalizing state with
  | nil => exact executed
  | cons transaction rest induction =>
      rw [List.foldl_cons]
      apply induction
      · exact executed.execute fun leaves call same => sent transaction List.mem_cons_self _ _ same
      · exact fun later member => sent later (List.mem_cons_of_mem _ member)

theorem consistent_step (consistent : Consistent keccak state)
    (sent : OfService keccak state label)
    (stepped : (machine verifiers).step state label = some next) : Consistent keccak next := by
  simp only [machine, step] at stepped
  split at stepped
  · rename_i fresh
    cases stepped
    rw [List.all_eq_true] at fresh
    have executed : Executed keccak state.contract
        (label.transactions.foldl (fun state transaction => execute verifiers transaction state)
          (state.contract, [], [])) :=
      Executed.foldl label.transactions ⟨fun _ => id, by simp⟩ sent
    refine ⟨?_, ?_, ?_⟩
    · intro block member
      rw [List.length_append, List.length_singleton]
      rcases List.mem_append.mp member with before | new
      · exact Nat.le_succ_of_le (consistent.number_le block before)
      · rw [List.mem_singleton.mp new]
    · apply List.pairwise_append.mpr
      refine ⟨consistent.ordered, List.pairwise_singleton _ _, ?_⟩
      intro block member other isNew
      rw [List.mem_singleton.mp isNew]
      have facts := fresh block member
      rw [Bool.and_eq_true, decide_eq_true_eq, decide_eq_true_eq] at facts
      have number := consistent.number_le block member
      dsimp only
      exact ⟨by omega, by omega, facts.2⟩
    · intro block member aggregation inBlock
      rcases List.mem_append.mp member with before | new
      · exact (consistent.recorded block before aggregation inBlock).mono executed.keeps
          (List.Subset.refl _)
      · rw [List.mem_singleton.mp new] at inBlock ⊢
        exact executed.recorded aggregation inBlock
  · cases stepped

theorem consistent_run {contract : AlignedProofAggregationService.State} {labels : List Label}
    (meets : (machine verifiers).Meets (OfService keccak) (deploy contract) labels)
    (ran : (machine verifiers).run (deploy contract) labels = some finish) :
    Consistent keccak finish := by
  refine Machine.run_preserves ?_ ⟨?_, List.Pairwise.nil, ?_⟩ meets ran
  · intro state next label invariant guarded stepped
    exact consistent_step invariant guarded stepped
  · intro block member
    cases member
  · intro block member
    cases member

/-! ## From an event to its leaves -/

/-- No two blobs of a block have the same versioned hash. -/
def Distinguished (sha256 : Bytes → Bytes32) (kzg : Bytes → Bytes) (state : State) : Prop :=
  ∀ block ∈ state.blocks, ∀ blob ∈ block.blobs, ∀ other ∈ block.blobs,
    versionedHash sha256 (kzg blob) = versionedHash sha256 (kzg other) → blob = other

theorem Consistent.eq_of_number (consistent : Consistent keccak state) {block other : Block}
    (member : block ∈ state.blocks) (otherMember : other ∈ state.blocks)
    (same : other.number = block.number) : other = block := by
  have distinct : (state.blocks.map Block.number).Nodup :=
    List.pairwise_map.mpr (consistent.ordered.imp fun facts => Nat.ne_of_lt facts.1)
  exact List.inj_on_of_nodup_map distinct otherMember member same

theorem Consistent.eq_of_slot (consistent : Consistent keccak state) {block other : Block}
    (member : block ∈ state.blocks) (otherMember : other ∈ state.blocks)
    (same : other.slot = block.slot) : other = block := by
  have distinct : (state.blocks.map Block.slot).Nodup :=
    List.pairwise_map.mpr (consistent.ordered.imp fun facts => Nat.ne_of_lt facts.2.1)
  exact List.inj_on_of_nodup_map distinct otherMember member same

theorem Consistent.eq_of_parentRoot (consistent : Consistent keccak state) {block other : Block}
    (member : block ∈ state.blocks) (otherMember : other ∈ state.blocks)
    (same : other.parentRoot = block.parentRoot) : other = block := by
  have distinct : (state.blocks.map Block.parentRoot).Nodup :=
    List.pairwise_map.mpr (consistent.ordered.imp fun facts => facts.2.2)
  exact List.inj_on_of_nodup_map distinct otherMember member same

/-- The block of an event leads to the header of its slot. -/
theorem getBlockHeaderFromParentHash_nodes (consistent : Consistent keccak state) {block : Block}
    (member : block ∈ state.blocks) (oldest : Nat) :
    (state.nodes kzg sha256 oldest).getBlockHeaderFromParentHash block.parentRoot =
      .ok (some ⟨block.slot, block.parentRoot⟩) := by
  have found : ((state.blocks.filter fun other => other.parentRoot = block.parentRoot).map
      fun other => (⟨other.slot, other.parentRoot⟩ : BeaconBlock)).find?
        (fun header => header.parentRoot = block.parentRoot) =
      some ⟨block.slot, block.parentRoot⟩ := by
    apply find?_eq_of_unique
    · apply List.mem_map.mpr
      exact ⟨block, List.mem_filter.mpr ⟨member, decide_eq_true rfl⟩, rfl⟩
    · exact decide_eq_true rfl
    · intro header isHeader _
      obtain ⟨other, kept, rfl⟩ := List.mem_map.mp isHeader
      obtain ⟨otherMember, same⟩ := List.mem_filter.mp kept
      rw [consistent.eq_of_parentRoot member otherMember (of_decide_eq_true same)]
  exact congrArg Except.ok found

/-- The slot of a block holds its own blobs, and the versioned hash picks one. -/
theorem getBlobByVersionedHash_nodes (consistent : Consistent keccak state)
    (distinguished : Distinguished sha256 kzg state) {block : Block}
    (member : block ∈ state.blocks) {blob : Bytes} (inBlock : blob ∈ block.blobs)
    {oldest : Nat} (kept : oldest ≤ block.slot) :
    (state.nodes kzg sha256 oldest).getBlobByVersionedHash sha256 block.slot
        (versionedHash sha256 (kzg blob)) = .ok (some ⟨blob, kzg blob⟩) := by
  have found : ((state.blocks.filter fun other => other.slot = block.slot).flatMap
      (Block.sidecars kzg)).find? (fun sidecar => versionedHash sha256 sidecar.kzgCommitment =
        versionedHash sha256 (kzg blob)) = some ⟨blob, kzg blob⟩ := by
    apply find?_eq_of_unique
    · apply List.mem_flatMap.mpr
      exact ⟨block, List.mem_filter.mpr ⟨member, decide_eq_true rfl⟩,
        List.mem_map.mpr ⟨blob, inBlock, rfl⟩⟩
    · exact decide_eq_true rfl
    · intro sidecar isSidecar same
      obtain ⟨other, ofSlot, inOther⟩ := List.mem_flatMap.mp isSidecar
      obtain ⟨otherMember, sameSlot⟩ := List.mem_filter.mp ofSlot
      rw [consistent.eq_of_slot member otherMember (of_decide_eq_true sameSlot)] at inOther
      obtain ⟨otherBlob, inSame, rfl⟩ := List.mem_map.mp inOther
      rw [distinguished block member otherBlob inSame blob inBlock (of_decide_eq_true same)]
  simp only [Nodes.getBlobByVersionedHash, State.nodes, if_pos kept, answered]
  exact congrArg Except.ok found

/-- What the SDK finds behind the event of an accepted aggregation. -/
theorem getBlobData_nodes (consistent : Consistent keccak state)
    (distinguished : Distinguished sha256 kzg state) {block : Block}
    (member : block ∈ state.blocks) {aggregation : Bytes32 × List Bytes32}
    (verified : aggregation ∈ block.verified) {blob : Bytes}
    (constructed : constructBlob aggregation.2 = some blob) (oldest : Nat) :
    (state.nodes kzg sha256 oldest).getBlobDataFromVerifiedProofEvent sha256
        ⟨aggregation.1, versionedHash sha256 (kzg blob), some block.number⟩ =
      if oldest ≤ block.slot then .ok aggregation else .error .beaconClient := by
  have recorded := consistent.recorded block member aggregation verified
  have parentRoot : (state.nodes kzg sha256 oldest).parentBeaconBlockRoot block.number =
      some (some block.parentRoot) := by
    have found : state.blocks.find? (fun other => other.number = block.number) = some block := by
      apply find?_eq_of_unique member (decide_eq_true rfl)
      intro other otherMember same
      exact consistent.eq_of_number member otherMember (of_decide_eq_true same)
    simp only [State.nodes, found, Option.map_some]
  have header : (state.nodes kzg sha256 oldest).getBlockHeaderFromParentHash block.parentRoot =
      .ok (some ⟨block.slot, block.parentRoot⟩) :=
    getBlockHeaderFromParentHash_nodes consistent member oldest
  simp only [Nodes.getBlobDataFromVerifiedProofEvent, answered, ZKVMEngine.bind_of_ok rfl,
    parentRoot, header]
  by_cases kept : oldest ≤ block.slot
  · obtain ⟨other, inBlock, isBlob⟩ := recorded.blob
    rw [constructed, Option.some.injEq] at isBlob
    subst isBlob
    rw [getBlobByVersionedHash_nodes consistent distinguished member inBlock kept]
    simp only [ZKVMEngine.bind_of_ok rfl, decodedBlob_of_constructBlob constructed recorded.nonzero,
      if_pos kept]
    rfl
  · rw [if_neg kept]
    simp only [Nodes.getBlobByVersionedHash, State.nodes, if_neg kept, answered]
    rfl

/-! ## The loop over the events -/

variable {hashes : MerkleTreeCrate Bytes32 Bytes32} {data : AggregationModeVerificationData}
  {oldest : Nat}

theorem checkLogs_of_found {nodes : Nodes}
    {logs : List AggregatedProofVerified} {aggregations : List (Bytes32 × List Bytes32)}
    (found : List.Forall₂ (fun log aggregation =>
      nodes.getBlobDataFromVerifiedProofEvent sha256 log = .ok aggregation) logs aggregations) :
    nodes.checkLogs keccak sha256 hashes data logs =
      .ok (data.checkProofVerification keccak hashes aggregations) := by
  induction found with
  | nil => rfl
  | @cons log aggregation logs aggregations head _ induction =>
      obtain ⟨root, leaves⟩ := aggregation
      rw [Nodes.checkLogs, AggregationModeVerificationData.checkProofVerification, head]
      dsimp only
      cases leaves.findIdx? fun leaf => leaf = data.commitment keccak with
      | none => exact induction
      | some position =>
          dsimp only
          cases hashes.build leaves with
          | none => exact induction
          | some built =>
              cases hashes.getProofByPos leaves position with
              | none => exact induction
              | some merklePath =>
                  dsimp only
                  split <;> rfl

/-- Every event of a kept block leads to its aggregation. -/
theorem found_of_kept (consistent : Consistent keccak state)
    (distinguished : Distinguished sha256 kzg state) {block : Block}
    (member : block ∈ state.blocks) (kept : block.verified ≠ [] → oldest ≤ block.slot) :
    List.Forall₂ (fun log aggregation =>
      (state.nodes kzg sha256 oldest).getBlobDataFromVerifiedProofEvent sha256 log =
        .ok aggregation) (block.logs kzg sha256) block.verified := by
  suffices ofSome : ∀ verified ⊆ block.verified, List.Forall₂ (fun log aggregation =>
      (state.nodes kzg sha256 oldest).getBlobDataFromVerifiedProofEvent sha256 log =
        .ok aggregation)
      (verified.filterMap fun aggregation => (constructBlob aggregation.2).map fun blob =>
        (⟨aggregation.1, versionedHash sha256 (kzg blob), some block.number⟩ :
          AggregatedProofVerified)) verified by
    exact ofSome _ (List.Subset.refl _)
  intro verified subset
  induction verified with
  | nil => exact .nil
  | cons aggregation rest induction =>
      have inBlock := subset List.mem_cons_self
      obtain ⟨blob, -, constructed⟩ := (consistent.recorded block member _ inBlock).blob
      rw [List.filterMap_cons_some (by rw [constructed, Option.map_some])]
      apply List.Forall₂.cons
      · rw [getBlobData_nodes consistent distinguished member inBlock constructed oldest,
          if_pos (kept (List.ne_nil_of_mem inBlock))]
      · exact induction fun _ later => subset (List.mem_cons_of_mem _ later)

theorem checkLogs_kept (consistent : Consistent keccak state)
    (distinguished : Distinguished sha256 kzg state) {blocks : List Block}
    (subset : blocks ⊆ state.blocks)
    (kept : ∀ block ∈ blocks, block.verified ≠ [] → oldest ≤ block.slot) :
    (state.nodes kzg sha256 oldest).checkLogs keccak sha256 hashes data
        (blocks.flatMap (Block.logs kzg sha256)) =
      .ok (data.checkProofVerification keccak hashes (blocks.flatMap Block.verified)) := by
  apply checkLogs_of_found
  induction blocks with
  | nil => exact .nil
  | cons block rest induction =>
      rw [List.flatMap_cons, List.flatMap_cons]
      apply List.rel_append
      · exact found_of_kept consistent distinguished (subset List.mem_cons_self)
          (kept block List.mem_cons_self)
      · exact induction (fun _ later => subset (List.mem_cons_of_mem _ later))
          fun later member => kept later (List.mem_cons_of_mem _ member)

/-- Slots rise, so the first event is one of a forgotten slot if any event is. -/
theorem checkLogs_forgotten (consistent : Consistent keccak state)
    (distinguished : Distinguished sha256 kzg state) {blocks : List Block}
    (subset : blocks ⊆ state.blocks)
    (rising : blocks.Pairwise fun earlier later => earlier.slot < later.slot)
    (forgotten : ∃ block ∈ blocks, block.verified ≠ [] ∧ block.slot < oldest) :
    (state.nodes kzg sha256 oldest).checkLogs keccak sha256 hashes data
      (blocks.flatMap (Block.logs kzg sha256)) = .error .beaconClient := by
  induction blocks with
  | nil =>
      obtain ⟨block, none, -⟩ := forgotten
      cases none
  | cons block rest induction =>
      obtain ⟨first, risingRest⟩ := List.pairwise_cons.mp rising
      obtain ⟨lost, isLost, nonempty, old⟩ := forgotten
      cases events : block.verified with
      | nil =>
          rw [List.flatMap_cons, Block.logs, events, List.filterMap_nil, List.nil_append]
          apply induction (fun _ later => subset (List.mem_cons_of_mem _ later)) risingRest
          rcases List.mem_cons.mp isLost with rfl | later
          · exact absurd events nonempty
          · exact ⟨lost, later, nonempty, old⟩
      | cons aggregation others =>
          have inBlock : aggregation ∈ block.verified := by
            rw [events]
            exact List.mem_cons_self
          have member := subset List.mem_cons_self
          obtain ⟨blob, -, constructed⟩ := (consistent.recorded block member _ inBlock).blob
          have tooOld : ¬oldest ≤ block.slot := by
            rcases List.mem_cons.mp isLost with rfl | later
            · exact Nat.not_le.mpr old
            · exact Nat.not_le.mpr (Nat.lt_trans (first lost later) old)
          have failed := getBlobData_nodes consistent distinguished member inBlock constructed oldest
          rw [if_neg tooOld] at failed
          rw [List.flatMap_cons, Block.logs, events,
            List.filterMap_cons_some (by rw [constructed, Option.map_some]), List.cons_append,
            Nodes.checkLogs, failed]

/-! ## Every aggregated proof -/

/-- The answer of the SDK over aggregations with the roots of their leaves. -/
theorem checkProofVerification_complete (documented : hashes.Documented id (hashNewParent keccak))
    {aggregations : List (Bytes32 × List Bytes32)}
    (roots : ∀ aggregation ∈ aggregations,
      MerkleTree.root (hashNewParent keccak) aggregation.2 = some aggregation.1) :
    (∃ aggregation ∈ aggregations, ∃ merklePath index,
      data.checkProofVerification keccak hashes aggregations =
          .verified aggregation.1 merklePath ∧
        data.commitment keccak ∈ aggregation.2 ∧
        MerkleTree.climb (hashNewParent keccak) merklePath index (data.commitment keccak) =
          aggregation.1) ∨
      data.checkProofVerification keccak hashes aggregations = .notFound ∧
        ∀ aggregation ∈ aggregations, data.commitment keccak ∉ aggregation.2 := by
  induction aggregations with
  | nil => exact .inr ⟨rfl, fun _ none => by cases none⟩
  | cons aggregation rest induction =>
      obtain ⟨root, leaves⟩ := aggregation
      by_cases member : data.commitment keccak ∈ leaves
      · obtain ⟨merklePath, index, checked, climbs⟩ := ZKVMEngine.checkProofVerification_of_mem
          documented (roots _ List.mem_cons_self) member rest
        exact .inl ⟨_, List.mem_cons_self, merklePath, index, checked, member, climbs⟩
      · have skipped : data.checkProofVerification keccak hashes ((root, leaves) :: rest) =
            data.checkProofVerification keccak hashes rest := by
          have absent : leaves.findIdx? (fun leaf => leaf = data.commitment keccak) = none := by
            rw [List.findIdx?_eq_none_iff]
            intro leaf isLeaf
            exact decide_eq_false fun same => member (same ▸ isLeaf)
          rw [AggregationModeVerificationData.checkProofVerification, absent]
        rw [skipped]
        rcases induction fun later isLater => roots later (List.mem_cons_of_mem _ isLater) with
          ⟨found, isFound, facts⟩ | ⟨notFound, nowhere⟩
        · exact .inl ⟨found, List.mem_cons_of_mem _ isFound, facts⟩
        · right
          refine ⟨notFound, ?_⟩
          intro other isOther
          rcases List.mem_cons.mp isOther with rfl | later
          · exact member
          · exact nowhere other later

/-- The first block the SDK asks for. -/
def State.firstBlock (fromBlock : Option Nat) (state : State) : Nat :=
  fromBlock.getD (state.blocks.length - fromBlocksAgoDefault)

/-- The blob of an aggregation since a block is not kept any more. -/
def State.Forgotten (oldest fromBlock : Nat) (state : State) : Prop :=
  ∃ block ∈ state.blocks, fromBlock ≤ block.number ∧ block.verified ≠ [] ∧ block.slot < oldest

theorem checkProofVerification_nodes (fromBlock : Option Nat) :
    (state.nodes kzg sha256 oldest).checkProofVerification keccak sha256 hashes data fromBlock =
      (state.nodes kzg sha256 oldest).checkLogs keccak sha256 hashes data
        ((state.blocks.filter fun block => state.firstBlock fromBlock ≤ block.number).flatMap
          (Block.logs kzg sha256)) := by
  have started : (state.nodes kzg sha256 oldest).startBlock fromBlock =
      .ok (state.firstBlock fromBlock) := by
    cases fromBlock with
    | none =>
        rw [Nodes.startBlock, State.firstBlock, Option.getD_none, State.nodes, answered]
        exact ZKVMEngine.bind_of_ok rfl _
    | some fromBlock => rfl
  have fetched : (state.nodes kzg sha256 oldest).fetchVerifiedProofsEvents fromBlock =
      .ok ((state.blocks.filter fun block => state.firstBlock fromBlock ≤ block.number).flatMap
        (Block.logs kzg sha256)) := by
    rw [Nodes.fetchVerifiedProofsEvents, ZKVMEngine.bind_of_ok started]
    rfl
  rw [Nodes.checkProofVerification, ZKVMEngine.bind_of_ok fetched]

/-- The SDK reports a proof, with a path that the contract accepts, exactly if
its commitment is in an aggregation since the first block.  One forgotten blob
since then hides all of them. -/
theorem aggregated_proofs_found (keccak sha256 : Bytes → Bytes32) (kzg : Bytes → Bytes)
    (verifiers : AlignedProofAggregationService.Verifiers)
    (hashes : MerkleTreeCrate Bytes32 Bytes32)
    (documented : hashes.Documented id (hashNewParent keccak))
    (processProofCalldata : List Bytes32 → Bytes32 → Bytes32)
    (processed : AlignedProofAggregationService.ProcessesSortedPairs keccak processProofCalldata)
    (contract : AlignedProofAggregationService.State) (labels : List Label) (finish : State)
    (meets : (machine verifiers).Meets (OfService keccak) (deploy contract) labels)
    (ran : (machine verifiers).run (deploy contract) labels = some finish)
    (distinguished : Distinguished sha256 kzg finish) (oldest : Nat) (fromBlock : Option Nat)
    (data : AggregationModeVerificationData) :
    let first := finish.firstBlock fromBlock
    let answer := (finish.nodes kzg sha256 oldest).checkProofVerification keccak sha256 hashes data
      fromBlock
    (finish.Forgotten oldest first → answer = .error .beaconClient) ∧
      (¬finish.Forgotten oldest first →
        (∃ aggregation ∈ finish.aggregations first, ∃ merklePath,
          answer = .ok (.verified aggregation.1 merklePath) ∧
            data.commitment keccak ∈ aggregation.2 ∧
            AlignedProofAggregationService.verifyProofInclusion keccak processProofCalldata
              merklePath data.provingSystemId data.programId data.publicInputs finish.contract) ∨
        answer = .ok .notFound ∧
          ∀ aggregation ∈ finish.aggregations first, data.commitment keccak ∉ aggregation.2) := by
  intro first answer
  have consistent := consistent_run meets ran
  have subset : finish.blocks.filter (fun block => first ≤ block.number) ⊆ finish.blocks :=
    List.filter_subset_self _
  have asked : answer = (finish.nodes kzg sha256 oldest).checkLogs keccak sha256 hashes data _ :=
    checkProofVerification_nodes fromBlock
  rw [asked]
  refine ⟨?_, ?_⟩
  · rintro ⟨block, member, since, nonempty, old⟩
    apply checkLogs_forgotten consistent distinguished subset
    · exact (consistent.ordered.imp fun facts => facts.2.1).filter _
    · exact ⟨block, List.mem_filter.mpr ⟨member, decide_eq_true since⟩, nonempty, old⟩
  · intro kept
    rw [checkLogs_kept consistent distinguished subset]
    · have recorded : ∀ aggregation ∈ finish.aggregations first,
          MerkleTree.root (hashNewParent keccak) aggregation.2 = some aggregation.1 ∧
            finish.contract.aggregatedProofs aggregation.1 = true := by
        intro aggregation member
        obtain ⟨block, since, verified⟩ := List.mem_flatMap.mp member
        have facts := consistent.recorded block (List.mem_filter.mp since).1 aggregation verified
        exact ⟨facts.root, facts.stored⟩
      rcases checkProofVerification_complete documented
          (fun aggregation member => (recorded aggregation member).1) with
        ⟨aggregation, member, merklePath, index, checked, inLeaves, climbs⟩ | ⟨notFound, nowhere⟩
      · left
        refine ⟨aggregation, member, merklePath, congrArg Except.ok checked, inLeaves, ?_⟩
        rw [AlignedProofAggregationService.verifyProofInclusion, ZKVMEngine.commitment_of_data,
          ZKVMEngine.processProofCalldata_eq_climb processed merklePath index, climbs]
        exact (recorded aggregation member).2
      · exact .inr ⟨congrArg Except.ok notFound, nowhere⟩
    · intro block member nonempty
      obtain ⟨inChain, since⟩ := List.mem_filter.mp member
      by_contra old
      exact kept ⟨block, inChain, of_decide_eq_true since, nonempty, Nat.not_le.mp old⟩

namespace Sample

def crates : Crates :=
  ⟨fun id => .reference (commitment Keccak256.keccak256 id) (hashNewParent Keccak256.keccak256),
    .reference id (hashNewParent Keccak256.keccak256)⟩

/-- A service with three proofs. -/
def host : Option (Bytes32 × List Bytes32) :=
  computeProofsMerkleRoot (.reference (AlignedProof.commitment Keccak256.keccak256)
    (hashNewParent Keccak256.keccak256)) Keccak256.keccak256 ZKVMEngine.Sample.proofs

def aggregated : Except ProofAggregationError (ProgramOutput × Bytes32) :=
  ZKVMEngine.sp1.aggregateProofs Keccak256.keccak256 crates ZKVMEngine.Sample.provingClient
    (fun _ => true) ZKVMEngine.Sample.proofs 2

def zkvmVerifiers : AlignedProofAggregationService.Verifiers where
  sp1VerifyProof _ _ _ _ := true
  risc0Verify _ _ _ _ := true
  sha256 := Keccak256.keccak256

def contract : AlignedProofAggregationService.State where
  aggregatedProofs _ := false
  sp1VerifierAddress := 1
  alignedAggregatorAddress := 2
  risc0VerifierAddress := 3
  risc0AggregatorProgramImageId := Bytes32.zero
  sp1AggregatorProgramVKHash := Bytes32.zero

/-- The aggregation and, two slots later, a blob of somebody else. -/
def labels (leaves : List Bytes32) (call : AlignedProofAggregationService.Call) : List Label :=
  [⟨10, Vector.replicate 32 1, [.aggregation leaves call]⟩,
    ⟨12, Vector.replicate 32 2, [.other [7]]⟩]

def firstProof : AggregationModeVerificationData :=
  (ZKVMEngine.Sample.compressedProof [1]).verificationData

def call (aggregatedProof : ProgramOutput) : AlignedProofAggregationService.Call :=
  ZKVMEngine.sp1.call contract.alignedAggregatorAddress [] aggregatedProof

def rootsAgree : Bool :=
  match host, aggregated with
  | some (root, _), .ok (_, zkvmRoot) => zkvmRoot = root
  | _, _ => false

theorem aggregated_eq : ∃ root leaves output, host = some (root, leaves) ∧
    aggregated = .ok (output, root) := by
  have agree : rootsAgree = true := by decide +kernel
  rw [rootsAgree] at agree
  split at agree
  · rename_i root leaves output zkvmRoot computed ran
    rw [of_decide_eq_true agree] at ran
    exact ⟨root, leaves, output, computed, ran⟩
  · cases agree

end Sample

theorem aggregated_proofs_found_sp1 : ∃ leaves call finish merklePath root,
    Submits Keccak256.keccak256 leaves call ∧
      (machine Sample.zkvmVerifiers).run (deploy Sample.contract) (Sample.labels leaves call) =
        some finish ∧
      (finish.nodes (List.take 48) Keccak256.keccak256 10).checkProofVerification
          Keccak256.keccak256 Keccak256.keccak256
          (.reference id (hashNewParent Keccak256.keccak256)) Sample.firstProof none =
        .ok (.verified root merklePath) := by
  obtain ⟨root, leaves, output, computed, ran⟩ := Sample.aggregated_eq
  have submits : Submits Keccak256.keccak256 leaves (Sample.call output) :=
    .run _ _ (MerkleTreeCrate.reference_documented _ _) computed ran
  have isLeaves : leaves = ZKVMEngine.Sample.proofs.map
      (AlignedProof.commitment Keccak256.keccak256) :=
    leaves_of_computeProofsMerkleRoot computed
  have nonzero : ∀ leaf ∈ leaves, leaf ≠ Bytes32.zero := by
    rw [isLeaves]
    decide +kernel
  have member : Sample.firstProof.commitment Keccak256.keccak256 ∈ leaves := by
    rw [isLeaves]
    exact List.mem_cons_self
  have isRoot : (Sample.call output).merkleRoot = .ok root :=
    merkleRoot_of_readMerkleRoot (readMerkleRoot_of_aggregateProofs ran)
  have accepted : AlignedProofAggregationService.execute Sample.zkvmVerifiers Sample.contract
      (Sample.call output) = .ok (Sample.contract.store root) := by
    have decoded : AlignedProofAggregationService.decodeBytes32 output.publicInputs = .ok root :=
      isRoot
    simp [AlignedProofAggregationService.execute, AlignedProofAggregationService.verifySP1,
      Sample.call, ZKVMEngine.call, decoded, Sample.zkvmVerifiers, Sample.contract]
  have fits : leaves.length ≤ 3968 := by
    rw [isLeaves, List.length_map]
    decide
  obtain ⟨zeros, constructed, -⟩ := constructBlob_eq fits
  generalize (chunks 31 (leaves.flatMap fun leaf => leaf.toList)).flatMap fieldElement ++
    List.replicate zeros 0 = blob at constructed
  have otherParent : (Vector.replicate 32 1 : Bytes32) ≠ Vector.replicate 32 2 := by decide
  have ended : (machine Sample.zkvmVerifiers).run (deploy Sample.contract)
      (Sample.labels leaves (Sample.call output)) =
      some ⟨Sample.contract.store root,
        [⟨1, 10, Vector.replicate 32 1, [blob], [(root, leaves)]⟩,
          ⟨2, 12, Vector.replicate 32 2, [[7]], []⟩]⟩ := by
    simp [Machine.run, machine, step, Sample.labels, deploy, execute, constructed, accepted,
      isRoot, otherParent]
  have meets : (machine Sample.zkvmVerifiers).Meets (OfService Keccak256.keccak256)
      (deploy Sample.contract) (Sample.labels leaves (Sample.call output)) := by
    refine ⟨?_, fun _ _ => ⟨?_, fun _ _ => trivial⟩⟩
    · intro transaction isFirst sent call same
      rw [List.mem_singleton.mp isFirst, Transaction.aggregation.injEq] at same
      obtain ⟨rfl, rfl⟩ := same
      exact ⟨submits, nonzero⟩
    · intro transaction isOther sent call same
      rw [List.mem_singleton.mp isOther] at same
      cases same
  obtain ⟨-, found⟩ := aggregated_proofs_found Keccak256.keccak256 Keccak256.keccak256
    (List.take 48) Sample.zkvmVerifiers _ (MerkleTreeCrate.reference_documented id _)
    (fun path leaf => path.foldl (hashNewParent Keccak256.keccak256) leaf) (fun _ _ => rfl)
    Sample.contract _ _ meets ended (by
      intro block member one isOne two isTwo _
      rcases List.mem_pair.mp member with rfl | rfl
      · rw [List.mem_singleton.mp isOne, List.mem_singleton.mp isTwo]
      · rw [List.mem_singleton.mp isOne, List.mem_singleton.mp isTwo]) 10 none Sample.firstProof
  rcases found (by
      rintro ⟨block, member, -, -, old⟩
      rcases List.mem_pair.mp member with rfl | rfl
      · exact absurd old (Nat.lt_irrefl 10)
      · exact absurd old (Nat.not_lt.mpr (by decide))) with
    ⟨aggregation, -, merklePath, answer, -⟩ | ⟨-, nowhere⟩
  · exact ⟨leaves, _, _, merklePath, aggregation.1, submits, ended, answer⟩
  · apply absurd member (nowhere (root, leaves) _)
    simp [State.aggregations, State.firstBlock, fromBlocksAgoDefault]

end BlobChain

end AlignedLayer
