import AlignedLayer.Contracts.TaskHistory
import AlignedLayer.Library.CollisionFree
import AlignedLayer.Library.Keccak256

/-!
# Inclusion in an answered batch

What `verifyBatchInclusion` says about a commitment.  It is sound: an accepted
commitment is in the batch, and the batch was answered by a quorum, because a
leaf, a pair of nodes and an identifier are hashed from messages of different
lengths.  It is complete: what the batcher sends to a client about its proof
is accepted by the SDK, and by the contract once the batch was answered.
-/

namespace AlignedLayer

open MerkleTree VerificationCommitmentBatch

/-- The 32 bytes at the start of a byte string. -/
def Bytes32.ofBytes (bytes : Bytes) : Bytes32 :=
  Vector.ofFn fun index : Fin 32 => bytes[index.val]?.getD 0

/-- The given number of words at the start of a byte string. -/
def wordsOf : Nat → Bytes → List Bytes32
  | 0, _ => []
  | count + 1, bytes => Bytes32.ofBytes bytes :: wordsOf count (bytes.drop 32)

/-- The siblings a proof consists of. -/
def siblingsOf (merkleProof : Bytes) : List Bytes32 :=
  wordsOf (merkleProof.length / 32) merkleProof

theorem Bytes32.ofBytes_append (word : Bytes32) (rest : Bytes) :
    Bytes32.ofBytes (word.toList ++ rest) = word := by
  apply Vector.ext
  intro index bound
  have inside : index < word.toList.length := by simpa using bound
  simp [ofBytes, List.getElem?_append_left inside, bound]

theorem length_flatMap_toList (path : List Bytes32) :
    (path.flatMap Vector.toList).length = 32 * path.length := by
  induction path with
  | nil => rfl
  | cons word path induction =>
      rw [List.flatMap_cons, List.length_append, induction, List.length_cons,
        Vector.length_toList]
      omega

theorem siblingsOf_flatMap (path : List Bytes32) :
    siblingsOf (path.flatMap Vector.toList) = path := by
  have words : ∀ path : List Bytes32, wordsOf path.length (path.flatMap Vector.toList) = path := by
    intro path
    induction path with
    | nil => rfl
    | cons word path induction =>
        have rest : (word.toList ++ path.flatMap Vector.toList).drop 32 =
            path.flatMap Vector.toList := List.drop_left' (by simp)
        rw [List.flatMap_cons, List.length_cons, wordsOf, Bytes32.ofBytes_append, rest, induction]
  rw [siblingsOf, length_flatMap_toList, Nat.mul_div_cancel_left _ (by decide)]
  exact words path

/-- `Merkle.verifyInclusionKeccak` takes the siblings word by word, and the
side of each from the parity of the index. -/
def VerifiesByParity (keccak : Bytes → Bytes32)
    (verifyInclusionKeccak : Bytes → Bytes32 → Bytes32 → Nat → Except Revert Bool) : Prop :=
  ∀ merkleProof root leaf index, verifyInclusionKeccak merkleProof root leaf index = .ok true ↔
    merkleProof.length % 32 = 0 ∧
      climb (hashNewParent keccak) (siblingsOf merkleProof) index leaf = root

/-- A function that does so. -/
def Merkle.verifyInclusionKeccak (keccak : Bytes → Bytes32) (merkleProof : Bytes)
    (root leaf : Bytes32) (index : Nat) : Except Revert Bool := do
  revertIf (merkleProof.length % 32 ≠ 0) .libraryRevert
  return climb (hashNewParent keccak) (siblingsOf merkleProof) index leaf = root

theorem Merkle.verifiesByParity (keccak : Bytes → Bytes32) :
    VerifiesByParity keccak (verifyInclusionKeccak keccak) := by
  intro merkleProof root leaf index
  simp [verifyInclusionKeccak, bind_eq_ok, pure, Except.pure]

namespace AlignedLayerServiceManager

/-- The bytes of a batch identifier. -/
def identifierBytes (batchMerkleRoot : Bytes32) (sender : Address) : Bytes :=
  batchMerkleRoot.toList ++ sender.toBytes.toList

theorem length_identifierBytes (batchMerkleRoot : Bytes32) (sender : Address) :
    (identifierBytes batchMerkleRoot sender).length = 52 := by
  simp [identifierBytes]

theorem identifierBytes_injective {root root' : Bytes32} {sender sender' : Address}
    (same : identifierBytes root sender = identifierBytes root' sender') :
    root = root' ∧ sender = sender' := by
  obtain ⟨sameRoot, sameSender⟩ := List.append_inj same (by simp)
  exact ⟨Vector.toList_inj.mp sameRoot,
    Address.toBytes_injective (Vector.toList_inj.mp sameSender)⟩

/-- The identifier a call hashes. -/
def Call.identified : Call → Option Bytes
  | .createNewTask _ message batchMerkleRoot _ =>
      some (identifierBytes batchMerkleRoot message.sender)
  | .respondToTaskV2 _ _ _ batchMerkleRoot senderAddress =>
      some (identifierBytes batchMerkleRoot senderAddress)
  | _ => none

/-- Everything hashed in the calls, in the check of a commitment, and in the
tree of a batch. -/
def hashedForInclusion (keccak : Bytes → Bytes32) (calls : List Call)
    (commitment : VerificationDataCommitment) (batchMerkleRoot : Bytes32) (merkleProof : Bytes)
    (verificationDataBatchIndex : Nat) (senderAddress : Address)
    (batch : List VerificationDataCommitment) : List Bytes :=
  identifierBytes batchMerkleRoot senderAddress :: calls.filterMap Call.identified ++
    hashedMessages keccak nodeBytes (batch.map leafBytes) (siblingsOf merkleProof)
      verificationDataBatchIndex (leafBytes commitment)

section

variable {keccak : Bytes → Bytes32} {deployed : Contract} {calls before : List Call}
  {batchMerkleRoot : Bytes32} {merkleProof : Bytes} {index : Nat}
  {verifyInclusionKeccak : Bytes → Bytes32 → Bytes32 → Nat → Except Revert Bool}
  {commitment : VerificationDataCommitment} {sender : Address}

theorem Happened.mem {call : Call} (happened : Happened keccak deployed calls before call) :
    call ∈ calls ∧ ∀ earlier ∈ before, earlier ∈ calls := by
  obtain ⟨⟨later, rfl⟩, -⟩ := happened
  exact ⟨by simp, fun earlier member => List.mem_append_left _ member⟩

theorem TaskCreated.identified (created : TaskCreated keccak deployed calls batchMerkleRoot sender) :
    identifierBytes batchMerkleRoot sender ∈ calls.filterMap Call.identified := by
  obtain ⟨before, blockNumber, message, limit, rfl, happened⟩ := created
  exact List.mem_filterMap.mpr ⟨_, happened.mem.1, rfl⟩

/-- The checks an accepted commitment has passed. -/
theorem verifyBatchInclusion_ok {contract : Contract}
    (parity : VerifiesByParity keccak verifyInclusionKeccak)
    (accepted : contract.verifyBatchInclusion keccak verifyInclusionKeccak commitment
      batchMerkleRoot merkleProof index sender = .ok true) :
    let identifier :=
      if sender = 0 then batchMerkleRoot else batchIdentifier keccak batchMerkleRoot sender
    (contract.batchesState identifier).taskCreatedBlock ≠ 0 ∧
      (contract.batchesState identifier).responded = true ∧
      climb (hashNewParent keccak) (siblingsOf merkleProof) index
        (keccak (leafBytes commitment)) = batchMerkleRoot := by
  simp only [Contract.verifyBatchInclusion, bind_eq_ok, revertIf_eq_ok] at accepted ⊢
  obtain ⟨-, -, accepted⟩ := accepted
  generalize (if sender = 0 then batchMerkleRoot
    else batchIdentifier keccak batchMerkleRoot sender) = identifier at accepted ⊢
  split at accepted
  · cases accepted
  · rename_i created
    split at accepted
    · cases accepted
    · rename_i responded
      refine ⟨created, ?_, ((parity _ _ _ _).mp accepted).2⟩
      simpa using responded

/-- The node a path leads to is hashed from a leaf or from a pair of nodes,
never from an identifier. -/
theorem climb_ne_identifier {messages : List Bytes} {identified : Bytes}
    (free : Set.InjOn keccak {message | message ∈ messages})
    (hashed : ∀ message ∈ leafBytes commitment :: climbMessages keccak nodeBytes
      (siblingsOf merkleProof) index (keccak (leafBytes commitment)), message ∈ messages)
    (member : identified ∈ messages) (length : identified.length = 52) :
    climb (hashNewParent keccak) (siblingsOf merkleProof) index
      (keccak (leafBytes commitment)) ≠ keccak identified := by
  intro same
  obtain ⟨last, lastMember, leads⟩ := @exists_climb_eq _ _ keccak nodeBytes
    (siblingsOf merkleProof) index (leafBytes commitment)
  have equal := free (hashed last lastMember) member (leads.symm.trans same)
  rcases List.mem_cons.mp lastMember with isLeaf | isPair
  · rw [← equal, isLeaf, length_leafBytes] at length
    exact absurd length (by decide)
  · obtain ⟨left, right, pair⟩ := mem_climbMessages isPair
    rw [← equal, pair, length_nodeBytes] at length
    exact absurd length (by decide)

/-- What an accepted commitment says about the history of its task. -/
theorem answered_of_accepted {batch : List VerificationDataCommitment} (fresh : deployed.Fresh)
    (parity : VerifiesByParity keccak verifyInclusionKeccak)
    (free : Set.InjOn keccak {message | message ∈ hashedForInclusion keccak calls commitment
      batchMerkleRoot merkleProof index sender batch})
    (accepted : (deployed.run keccak calls).verifyBatchInclusion keccak verifyInclusionKeccak
      commitment batchMerkleRoot merkleProof index sender = .ok true) :
    TaskAnswered keccak deployed calls batchMerkleRoot sender := by
  obtain ⟨created, responded, climbed⟩ := verifyBatchInclusion_ok parity accepted
  have recorded : Recorded keccak deployed calls := recorded_run fresh calls
  have identified : ∀ message ∈ calls.filterMap Call.identified,
      message ∈ hashedForInclusion keccak calls commitment batchMerkleRoot merkleProof index
        sender batch := by
    intro message member
    exact List.mem_append_left _ (List.mem_cons_of_mem _ member)
  have own : identifierBytes batchMerkleRoot sender ∈ hashedForInclusion keccak calls commitment
      batchMerkleRoot merkleProof index sender batch :=
    List.mem_append_left _ List.mem_cons_self
  by_cases zero : sender = 0
  · rw [if_pos zero] at created
    obtain ⟨root, creator, same, task⟩ := recorded.created _ created
    refine absurd (climbed.trans same.symm) (climb_ne_identifier free ?_
      (identified _ task.identified) (length_identifierBytes root creator))
    intro message member
    apply List.mem_append_right
    rcases List.mem_cons.mp member with rfl | onPath
    · simp [hashedMessages]
    · exact List.mem_append_right _ onPath
  · rw [if_neg zero] at responded
    obtain ⟨root, answerer, before, caller, gas, checkSignatures, block, totals, same,
      ⟨createdRoot, creator, sameCreated, task⟩, happened, checked, quorum⟩ :=
        recorded.answered _ responded
    have answered := identifierBytes_injective (free
      (identified _ (List.mem_filterMap.mpr ⟨_, happened.mem.1, rfl⟩)) own same)
    obtain ⟨rfl, rfl⟩ := answered
    have inCalls : identifierBytes createdRoot creator ∈ calls.filterMap Call.identified := by
      obtain ⟨call, member, isCall⟩ := List.mem_filterMap.mp task.identified
      exact List.mem_filterMap.mpr ⟨call, happened.mem.2 call member, isCall⟩
    obtain ⟨rfl, rfl⟩ := identifierBytes_injective (free (identified _ inCalls) own sameCreated)
    exact ⟨before, caller, gas, checkSignatures, block, totals, task, happened, checked, quorum⟩

end

/-- An accepted commitment belongs to a task that was created and answered by
a quorum, and it is in every batch whose tree has the root of the task. -/
theorem verifyBatchInclusion_sound (keccak : Bytes → Bytes32)
    (verifyInclusionKeccak : Bytes → Bytes32 → Bytes32 → Nat → Except Revert Bool)
    (parity : VerifiesByParity keccak verifyInclusionKeccak)
    (deployed : Contract) (fresh : deployed.Fresh) (calls : List Call)
    (commitment : VerificationDataCommitment) (batchMerkleRoot : Bytes32) (merkleProof : Bytes)
    (verificationDataBatchIndex : Nat) (senderAddress : Address)
    (batch : List VerificationDataCommitment)
    (free : Set.InjOn keccak {message | message ∈ hashedForInclusion keccak calls commitment
      batchMerkleRoot merkleProof verificationDataBatchIndex senderAddress batch})
    (accepted : (deployed.run keccak calls).verifyBatchInclusion keccak verifyInclusionKeccak
      commitment batchMerkleRoot merkleProof verificationDataBatchIndex senderAddress =
        .ok true) :
    TaskAnswered keccak deployed calls batchMerkleRoot senderAddress ∧
      (MerkleTree.root (hashNewParent keccak) (batch.map (hashData keccak)) =
        some batchMerkleRoot → commitment ∈ batch) := by
  refine ⟨answered_of_accepted fresh parity free accepted, ?_⟩
  intro isRoot
  obtain ⟨-, -, climbed⟩ := verifyBatchInclusion_ok parity accepted
  have leaves : (batch.map leafBytes).map keccak = batch.map (hashData keccak) := by
    rw [List.map_map]
    rfl
  have member : leafBytes commitment ∈ batch.map leafBytes := by
    refine mem_of_climb ?_ ?_ (free.mono fun message => List.mem_append_right _) ?_
    · intro left right left' right' same
      exact .inl (nodeBytes_injective same)
    · intro leaf leafMember left right same
      have length : leaf.length = 116 := by
        rcases List.mem_cons.mp leafMember with rfl | inBatch
        · exact length_leafBytes commitment
        · obtain ⟨original, -, rfl⟩ := List.mem_map.mp inBatch
          exact length_leafBytes original
      rw [same, length_nodeBytes] at length
      exact absurd length (by decide)
    · rw [leaves]
      exact isRoot.trans (congrArg some climbed.symm)
  obtain ⟨original, originalMember, same⟩ := List.mem_map.mp member
  rw [← leafBytes_injective same]
  exact originalMember

namespace Sample

/-- A contract at address 8 whose aggregator has address 5. -/
def deployed : Contract :=
  { self := 8
    ethBalance := 0
    owner := 4
    alignedAggregator := 5
    disabledVerifiers := 0
    pausedStatus := 0
    batchesState := fun _ =>
      { taskCreatedBlock := 0, responded := false, respondToTaskFeeLimit := 0 }
    batchersBalances := fun _ => 0 }

def commitment (byte : UInt8) : VerificationDataCommitment :=
  { proofCommitment := Vector.replicate 32 byte
    pubInputCommitment := Vector.replicate 32 0
    provingSystemAuxDataCommitment := Vector.replicate 32 0
    proofGeneratorAddr := Vector.replicate 20 0 }

def leaf (byte : UInt8) : Bytes32 :=
  hashData Keccak256.keccak256 (commitment byte)

/-- The root of a batch of two. -/
def batchRoot : Bytes32 :=
  hashNewParent Keccak256.keccak256 (leaf 1) (leaf 2)

/-- The task of the batch is created by address 7 and answered by 67 of 100. -/
def answeredTask : List Call :=
  [.createNewTask 1 ⟨7, 0⟩ batchRoot 0,
    .respondToTaskV2 5 ⟨0, 0⟩ (fun _ _ => .ok ⟨[67], [100]⟩) batchRoot 7]

end Sample

theorem verifyBatchInclusion_sound_secondOfTwo :
    TaskAnswered Keccak256.keccak256 Sample.deployed Sample.answeredTask Sample.batchRoot 7 ∧
      Sample.commitment 2 ∈ [Sample.commitment 1, Sample.commitment 2] := by
  have free : Set.InjOn Keccak256.keccak256 {message | message ∈ hashedForInclusion
      Keccak256.keccak256 Sample.answeredTask (Sample.commitment 2) Sample.batchRoot
      (Sample.leaf 1).toList 1 7 [Sample.commitment 1, Sample.commitment 2]} := by
    refine @injOn_of_nodup _ _ _ _
      [identifierBytes Sample.batchRoot 7, leafBytes (Sample.commitment 1),
        leafBytes (Sample.commitment 2), nodeBytes (Sample.leaf 1) (Sample.leaf 2)] ?_ ?_
    · decide +kernel
    · decide +kernel
  have sound := verifyBatchInclusion_sound Keccak256.keccak256
    (Merkle.verifyInclusionKeccak Keccak256.keccak256) (Merkle.verifiesByParity _)
    Sample.deployed ⟨fun _ => rfl, fun _ => rfl⟩ Sample.answeredTask (Sample.commitment 2)
    Sample.batchRoot (Sample.leaf 1).toList 1 7 [Sample.commitment 1, Sample.commitment 2]
    free (by decide +kernel)
  exact ⟨sound.1, sound.2 (by decide +kernel)⟩

/-! ## Completeness -/

section

variable {keccak : Bytes → Bytes32} {deployed contract next : Contract} {calls before : List Call}

/-- An answered task stays answered: it cannot be created again. -/
theorem Contract.execute_keeps_answered {call : Call} {identifier : Bytes32}
    (executed : contract.execute keccak call = .ok next)
    (created : (contract.batchesState identifier).taskCreatedBlock ≠ 0)
    (responded : (contract.batchesState identifier).responded = true) :
    (next.batchesState identifier).taskCreatedBlock ≠ 0 ∧
      (next.batchesState identifier).responded = true := by
  rcases execute_batchesState executed with same | ⟨blockNumber, message, root, limit, rfl⟩ |
    ⟨sender, gas, check, root, address, rfl⟩
  · rw [same]
    exact ⟨created, responded⟩
  · obtain ⟨absent, written⟩ := createNewTask_ok executed
    have other : identifier ≠ batchIdentifier keccak root message.sender := by
      intro same
      rw [same] at created
      exact created absent
    rw [written, Function.update_of_ne other]
    exact ⟨created, responded⟩
  · simp only [execute, bind_eq_ok, Prod.exists, pure, Except.pure, Except.ok.injEq] at executed
    obtain ⟨answered, paid, answer, rfl⟩ := executed
    obtain ⟨present, -, written⟩ := respondToTaskV2_ok answer
    rw [written]
    by_cases own : identifier = batchIdentifier keccak root address
    · rw [own, Function.update_self]
      exact ⟨present, rfl⟩
    · rw [Function.update_of_ne own]
      exact ⟨created, responded⟩

theorem Contract.run_keeps_answered {identifier : Bytes32} (calls : List Call)
    (created : (contract.batchesState identifier).taskCreatedBlock ≠ 0)
    (responded : (contract.batchesState identifier).responded = true) :
    ((contract.run keccak calls).batchesState identifier).taskCreatedBlock ≠ 0 ∧
      ((contract.run keccak calls).batchesState identifier).responded = true := by
  induction calls generalizing contract with
  | nil => exact ⟨created, responded⟩
  | cons call calls induction =>
      rw [run, List.foldl_cons]
      cases executed : contract.execute keccak call with
      | error reason =>
          rw [transact, executed]
          exact induction created responded
      | ok next =>
          rw [transact, executed]
          obtain ⟨still, answered⟩ := execute_keeps_answered executed created responded
          exact induction still answered

/-- A task that was answered at some time is stored as such ever after. -/
theorem Happened.stored {sender caller : Address} {batchMerkleRoot : Bytes32} {gas : Gas}
    {checkSignatures : Bytes32 → Nat → Except Revert QuorumStakeTotals}
    (happened : Happened keccak deployed calls before
      (.respondToTaskV2 caller gas checkSignatures batchMerkleRoot sender)) :
    let batchState := (deployed.run keccak calls).batchesState
      (batchIdentifier keccak batchMerkleRoot sender)
    batchState.taskCreatedBlock ≠ 0 ∧ batchState.responded = true := by
  obtain ⟨⟨later, rfl⟩, next, executed⟩ := happened
  have answer := executed
  simp only [Contract.execute, bind_eq_ok, Prod.exists, pure, Except.pure,
    Except.ok.injEq] at answer
  obtain ⟨answered, paid, answer, rfl⟩ := answer
  obtain ⟨created, -, written⟩ := Contract.respondToTaskV2_ok answer
  have reached : deployed.run keccak (before ++
      .respondToTaskV2 caller gas checkSignatures batchMerkleRoot sender :: later) =
      answered.run keccak later := by
    simp only [Contract.run, List.foldl_append, List.foldl_cons]
    congr 1
    rw [Contract.transact]
    rw [Contract.run] at executed
    rw [executed]
  rw [reached]
  apply Contract.run_keeps_answered
  · rw [written, Function.update_self]
    exact created
  · rw [written, Function.update_self]

end

/-- For every position of every batch there is inclusion data, which the SDK
accepts for the commitment at that position, and which the contract accepts
once the task of the batch was answered. -/
theorem inclusion_complete (keccak : Bytes → Bytes32)
    (crate : MerkleTreeCrate VerificationDataCommitment Bytes32)
    (documented : crate.Documented (hashData keccak) (hashNewParent keccak))
    (verifyInclusionKeccak : Bytes → Bytes32 → Bytes32 → Nat → Except Revert Bool)
    (parity : VerifiesByParity keccak verifyInclusionKeccak)
    (batch : List VerificationDataCommitment) (index userNonce : Nat)
    (commitment : VerificationDataCommitment) (found : batch[index]? = some commitment)
    (paymentService : Address) (deployedAt : paymentService ≠ 0) :
    ∃ data, BatchInclusionData.new crate index batch userNonce = some data ∧
      crate.build batch = some data.batchMerkleRoot ∧
      verifyProofInclusion crate commitment data = true ∧
      ∀ (deployed : Contract) (calls before : List Call) (caller : Address) (gas : Gas)
        (checkSignatures : Bytes32 → Nat → Except Revert QuorumStakeTotals),
        Happened keccak deployed calls before
          (.respondToTaskV2 caller gas checkSignatures data.batchMerkleRoot paymentService) →
        (deployed.run keccak calls).verifyBatchInclusion keccak verifyInclusionKeccak commitment
            data.batchMerkleRoot data.merkleProof data.indexInBatch paymentService =
          if (deployed.run keccak calls).isPaused 2 then .error .paused else .ok true := by
  obtain ⟨path, root, isData, built, rfl, verified⟩ :=
    BatchInclusionData.new_eq_some documented found userNonce
  refine ⟨_, isData, built, verified, ?_⟩
  intro deployed calls before caller gas checkSignatures happened
  obtain ⟨created, responded⟩ := happened.stored
  have climbed : verifyInclusionKeccak (path.flatMap Vector.toList)
      (climb (hashNewParent keccak) path index (hashData keccak commitment))
      (keccak (leafBytes commitment)) index = .ok true := by
    rw [parity, siblingsOf_flatMap]
    refine ⟨?_, rfl⟩
    rw [length_flatMap_toList]
    exact Nat.mul_mod_right _ _
  rw [Contract.verifyBatchInclusion]
  cases paused : (deployed.run keccak calls).isPaused 2 with
  | true => rfl
  | false =>
      simp only [if_neg deployedAt, if_neg created, responded]
      exact climbed

namespace Sample

/-- The client's proof is the third one of three. -/
def batch : List VerificationDataCommitment :=
  [commitment 1, commitment 2, commitment 3]

/-- The tree has four leaves, the last one twice. -/
def data : BatchInclusionData :=
  { batchMerkleRoot := hashNewParent Keccak256.keccak256 batchRoot
      (hashNewParent Keccak256.keccak256 (leaf 3) (leaf 3))
    batchInclusionProof := [leaf 3, batchRoot]
    indexInBatch := 2
    userNonce := 0 }

def creation : Call :=
  .createNewTask 1 ⟨7, 0⟩ data.batchMerkleRoot 0

def answer : Call :=
  .respondToTaskV2 5 ⟨0, 0⟩ (fun _ _ => .ok ⟨[67], [100]⟩) data.batchMerkleRoot 7

theorem answer_happened (later : List Call) :
    Happened Keccak256.keccak256 deployed (creation :: answer :: later) [creation] answer := by
  refine ⟨⟨later, rfl⟩, ?_⟩
  have succeeds : ((deployed.run Keccak256.keccak256 [creation]).execute Keccak256.keccak256
      answer).toOption.isSome = true := by decide +kernel
  cases executed : (deployed.run Keccak256.keccak256 [creation]).execute
      Keccak256.keccak256 answer with
  | ok next => exact ⟨next, rfl⟩
  | error reason =>
      rw [executed] at succeeds
      cases succeeds

end Sample

theorem inclusion_complete_lastOfThree :
    (Sample.deployed.run Keccak256.keccak256 [Sample.creation, Sample.answer]).verifyBatchInclusion
      Keccak256.keccak256 (Merkle.verifyInclusionKeccak Keccak256.keccak256)
      (Sample.commitment 3) Sample.data.batchMerkleRoot Sample.data.merkleProof 2 7 =
        .ok true := by
  obtain ⟨data, new, -, -, verified⟩ := inclusion_complete Keccak256.keccak256
    (.reference (hashData Keccak256.keccak256) (hashNewParent Keccak256.keccak256))
    (MerkleTreeCrate.reference_documented _ _)
    (Merkle.verifyInclusionKeccak Keccak256.keccak256) (Merkle.verifiesByParity _)
    Sample.batch 2 0 (Sample.commitment 3) rfl 7 (by decide)
  have isData : BatchInclusionData.new (.reference (hashData Keccak256.keccak256)
      (hashNewParent Keccak256.keccak256)) 2 Sample.batch 0 = some Sample.data := by
    decide +kernel
  cases new.symm.trans isData
  have running : (Sample.deployed.run Keccak256.keccak256
      [Sample.creation, Sample.answer]).isPaused 2 = false := by
    decide +kernel
  have accepted := verified _ _ _ _ _ _ (Sample.answer_happened [])
  rw [running] at accepted
  exact accepted

/-- A paused contract answers nobody, whatever was verified before. -/
theorem inclusion_reverts_when_paused :
    BatchInclusionData.new (.reference (hashData Keccak256.keccak256)
        (hashNewParent Keccak256.keccak256)) 2 Sample.batch 0 = some Sample.data ∧
      Happened Keccak256.keccak256 Sample.deployed
        [Sample.creation, Sample.answer, .setPaused 4] [Sample.creation] Sample.answer ∧
      (Sample.deployed.run Keccak256.keccak256
          [Sample.creation, Sample.answer, .setPaused 4]).verifyBatchInclusion
        Keccak256.keccak256 (Merkle.verifyInclusionKeccak Keccak256.keccak256)
        (Sample.commitment 3) Sample.data.batchMerkleRoot Sample.data.merkleProof 2 7 =
          .error .paused := by
  refine ⟨by decide +kernel, Sample.answer_happened [.setPaused 4], ?_⟩
  rw [Contract.verifyBatchInclusion]
  have paused : (Sample.deployed.run Keccak256.keccak256
      [Sample.creation, Sample.answer, .setPaused 4]).isPaused 2 = true := by
    decide +kernel
  rw [paused]
  rfl

end AlignedLayerServiceManager

end AlignedLayer
