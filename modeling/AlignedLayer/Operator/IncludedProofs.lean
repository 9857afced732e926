import AlignedLayer.Contracts.BatchInclusion
import AlignedLayer.Operator.BatchRoots
import AlignedLayer.Operator.CheckedBytes
import AlignedLayer.Operator.Network
import AlignedLayer.Operator.VerifiedBatches

/-!
# Included proofs were verified

A commitment that the service manager accepts is the one of a proof that an
operator with the code has verified, whatever the data service answers, as
long as the faulty operators are no quorum.
-/

namespace AlignedLayer.Operator

open AlignedLayerServiceManager MerkleTree VerificationCommitmentBatch

variable {formats : Formats} {keccak : Bytes → Bytes32}
  {crate : MerkleTreeCrate VerificationDataCommitment Bytes32} {verifier : VerifierCall → Bool}

/-! ## One batch -/

theorem getBatch_of_downloaded {answers : List (Option Bytes)} {expectedMerkleRoot : Bytes32}
    {batch : List VerificationData}
    (downloaded : getBatchFromDataServiceWithMultipleURLs formats keccak crate answers
      expectedMerkleRoot = some batch) :
    ∃ batchBytes, some batchBytes ∈ answers ∧
      getBatchFromDataService formats keccak crate batchBytes expectedMerkleRoot = some batch := by
  obtain ⟨answer, member, read⟩ := List.exists_of_findSome?_eq_some downloaded
  obtain ⟨batchBytes, rfl, read⟩ := Option.bind_eq_some_iff.mp read
  exact ⟨batchBytes, member, read⟩

theorem getBatch_eq_some {batchBytes : Bytes} {expectedMerkleRoot : Bytes32}
    {batch : List VerificationData}
    (read : getBatchFromDataService formats keccak crate batchBytes expectedMerkleRoot =
      some batch) :
    innerVerifyMerkleTreeBatchFfi formats keccak crate batchBytes expectedMerkleRoot = true ∧
      (Unmarshal.cbor formats batchBytes = some batch ∨
        Unmarshal.json formats batchBytes = some batch) := by
  rw [getBatchFromDataService] at read
  split at read
  · rename_i checked
    refine ⟨checked, ?_⟩
    rw [Option.orElse_eq_orElse, Option.orElse_eq_or, Option.or_eq_some_iff] at read
    exact read.imp id And.right
  · cases read

/-- Bytes that read alike give the batch whose root was checked. -/
theorem batch_eq_of_readAlike {batchBytes : Bytes} {batch : List VerificationData}
    {accepted : List AlignedLayer.VerificationData} (alike : BytesReadAlike formats batchBytes)
    (decoded : decodedBatch formats batchBytes = some accepted)
    (read : Unmarshal.cbor formats batchBytes = some batch ∨
      Unmarshal.json formats batchBytes = some batch) :
    batch = accepted.map VerificationData.ofSdk := by
  rcases decodedBatch_cases decoded with isCbor | ⟨noCbor, isJson⟩
  · obtain ⟨item, rest, isItem, isBatch⟩ := fromReader_eq_some isCbor
    rcases read with readCbor | readJson
    · obtain ⟨first, isFirst, reads, readBatch⟩ := unmarshal_cbor_eq_some.mp readCbor
      have settled := alike.cbor (Option.isSome_of_eq_some isCbor) first isFirst reads
      rw [isItem] at isFirst
      cases isFirst
      exact (batch_eq_iff isBatch).mpr settled batch readBatch
    · obtain ⟨value, isValue, -, -⟩ := unmarshal_json_eq_some.mp readJson
      rw [formats.disjoint _ _ _ isItem (.inr (untag_of_batch isBatch))] at isValue
      cases isValue
  · obtain ⟨value, isValue, isBatch⟩ := fromSlice_eq_some isJson
    rcases read with readCbor | readJson
    · obtain ⟨item, isItem, -, readBatch⟩ := unmarshal_cbor_eq_some.mp readCbor
      rw [formats.disjoint _ _ _ isItem (untag_of_unmarshal readBatch)] at isValue
      cases isValue
    · obtain ⟨text, isText, reads, readBatch⟩ := unmarshal_json_eq_some.mp readJson
      have settled := alike.json noCbor text isText reads
      rw [isValue] at isText
      cases isText
      exact (batch_eq_iff isBatch).mpr settled batch readBatch

/-- Without the bitmap the function can only fail. -/
theorem returned_of_unread {batch : List VerificationData} {disabledVerifiersBitmap numCPU : Nat}
    {schedule : List Goroutine} {pool : WorkerPool}
    (ran : (WorkerPool.machine verifier disabledVerifiersBitmap batch).run
      (WorkerPool.start numCPU (some batch) none) schedule = some pool) :
    pool.phase = .reporting ∨ pool.phase = .returned false := by
  have keeps : ∀ {before after : WorkerPool} {goroutine : Goroutine},
      before.phase = .reporting ∨ before.phase = .returned false →
      (WorkerPool.machine verifier disabledVerifiersBitmap batch).step before goroutine =
        some after → after.phase = .reporting ∨ after.phase = .returned false := by
    intro before after goroutine phase stepped
    cases WorkerPool.step_move stepped with
    | reports => exact .inr rfl
    | fails => exact .inr rfl
    | takes | finishes | answers | panics | closesResults => exact phase
    | spawns other | starts other | sends other | closesJobs other | receives other
    | succeeds other =>
        rw [other] at phase
        rcases phase with impossible | impossible
        · cases impossible
        · cases impossible
  exact Machine.run_invariant keeps (.inl rfl) ran

/-- Nil is returned for a downloaded batch with verified proofs only. -/
theorem verified_of_processed {newBatchLog : NewBatchV3} {disabledVerifiersBitmap : Nat}
    {processing : Processing}
    (processed : processNewBatchLogV3 formats keccak crate verifier newBatchLog
      disabledVerifiersBitmap processing = some true) :
    ∃ batch, getBatchFromDataServiceWithMultipleURLs formats keccak crate processing.answers
        newBatchLog.batchMerkleRoot = some batch ∧
      ∀ data ∈ batch, verify verifier disabledVerifiersBitmap data = true := by
  rw [processNewBatchLogV3] at processed
  split at processed
  · cases processed
  · rename_i pool ran
    have phase : pool.phase = .returned true := by
      split at processed
      · rename_i succeeded returned
        cases processed
        exact returned
      · cases processed
    cases downloaded : getBatchFromDataServiceWithMultipleURLs formats keccak crate
        processing.answers newBatchLog.batchMerkleRoot with
    | none =>
        rw [downloaded] at ran
        obtain ⟨-, rfl⟩ := WorkerPool.run_of_no_batch ran
        cases phase
    | some batch =>
        rw [downloaded] at ran
        refine ⟨batch, rfl, ?_⟩
        by_cases read : processing.bitmapRead = true
        · rw [if_pos read] at ran
          have accounted := WorkerPool.accounted_run ran
          exact (accounted.returned_iff (WorkerPool.maxWorkers_pos _) phase).mp rfl
        · rw [if_neg read] at ran
          rcases returned_of_unread ran with other | other
          · rw [phase] at other
            cases other
          · rw [phase] at other
            cases other

namespace Network

variable {Id : Type} {contract : Contract} {network finish : Network Id}
  {labels : List (Label Id)} {faulty operators : Finset Id} {stake : Nat → Id → Nat}

/-! ## What has happened on the chain -/

@[simp] theorem sign_contract (operator : Id) (hash : Bytes32) :
    (network.sign operator hash).contract = network.contract :=
  rfl

theorem contract_run {start : Network Id}
    (ran : (machine formats keccak crate verifier).run start labels = some finish) :
    finish.contract = start.contract.run keccak (labels.filterMap Label.call) := by
  induction labels generalizing start with
  | nil =>
      cases ran
      rfl
  | cons label labels induction =>
      obtain ⟨next, stepped, rest⟩ := Option.bind_eq_some_iff.mp ran
      rw [induction rest]
      cases label with
      | transaction call =>
          cases stepped
          rfl
      | handleNewBatchLogV3 operator newBatchLog processing =>
          simp only [machine, step] at stepped
          split at stepped
          · cases stepped
            rfl
          · cases stepped
            rfl
      | forge operator hash =>
          cases stepped
          rfl

/-- The call was made in a state of the run. -/
theorem exists_before_of_call {call : Call} {before later : List Call} {start : Network Id}
    (split : labels.filterMap Label.call = before ++ call :: later)
    (ran : (machine formats keccak crate verifier).run start labels = some finish) :
    ∃ earlier rest, labels = earlier ++ .transaction call :: rest ∧
      ∃ network, (machine formats keccak crate verifier).run start earlier = some network := by
  obtain ⟨left, right, rfl, -, fromCall⟩ := List.filterMap_eq_append_iff.mp split
  obtain ⟨skipped, label, rest, rfl, -, isCall, -⟩ := List.filterMap_eq_cons_iff.mp fromCall
  have same : label = .transaction call := by
    cases label with
    | transaction other =>
        cases isCall
        rfl
    | handleNewBatchLogV3 => cases isCall
    | forge => cases isCall
  subst same
  refine ⟨left ++ skipped, rest, (List.append_assoc _ _ _).symm, ?_⟩
  rw [← List.append_assoc, Machine.run_append] at ran
  obtain ⟨network, reached, -⟩ := Option.bind_eq_some_iff.mp ran
  exact ⟨network, reached⟩

/-! ## Who has signed -/

/-- A log was processed in a state of the run, and its batch was signed. -/
structure Handled (formats : Formats) (keccak : Bytes → Bytes32)
    (crate : MerkleTreeCrate VerificationDataCommitment Bytes32) (verifier : VerifierCall → Bool)
    (contract : Contract) (labels : List (Label Id)) (operator : Id) (newBatchLog : NewBatchV3)
    (processing : Processing) (network : Network Id) (hash : Bytes32) : Prop where
  happened : ∃ earlier, earlier ++ [.handleNewBatchLogV3 operator newBatchLog processing] <+:
      labels ∧
    (machine formats keccak crate verifier).run (deploy contract) earlier = some network
  signs : Operator.handleNewBatchLogV3 formats keccak crate verifier newBatchLog
    network.contract.disabledVerifiers processing = some hash

/-- Where a signature comes from. -/
theorem signatures_run {operator : Id} {hash : Bytes32}
    (ran : (machine formats keccak crate verifier).run (deploy contract) labels = some finish)
    (signed : (operator, hash) ∈ finish.signatures) :
    .forge operator hash ∈ labels ∨ ∃ newBatchLog processing network,
      Handled formats keccak crate verifier contract labels operator newBatchLog processing
        network hash := by
  induction labels using List.reverseRecOn generalizing finish with
  | nil =>
      cases ran
      cases signed
  | append_singleton labels label induction =>
      rw [Machine.run_append] at ran
      obtain ⟨middle, reached, last⟩ := Option.bind_eq_some_iff.mp ran
      obtain ⟨next, stepped, same⟩ := Option.bind_eq_some_iff.mp last
      cases same
      have before : (operator, hash) ∈ middle.signatures →
          .forge operator hash ∈ labels ++ [label] ∨ ∃ newBatchLog processing network,
            Handled formats keccak crate verifier contract (labels ++ [label]) operator
              newBatchLog processing network hash := by
        intro earlier
        rcases induction reached earlier with forged |
          ⟨newBatchLog, processing, network, ⟨before, isPrefix, ranBefore⟩, signs⟩
        · exact .inl (List.mem_append_left _ forged)
        · exact .inr ⟨newBatchLog, processing, network,
            ⟨before, isPrefix.trans (List.prefix_append _ _), ranBefore⟩, signs⟩
      cases label with
      | transaction call =>
          cases stepped
          exact before signed
      | handleNewBatchLogV3 handler newBatchLog processing =>
          simp only [machine, step] at stepped
          split at stepped
          · rename_i signedHash signs
            cases stepped
            rcases List.mem_append.mp signed with earlier | new
            · exact before earlier
            · cases List.mem_singleton.mp new
              exact .inr ⟨newBatchLog, processing, middle,
                ⟨labels, List.prefix_refl _, reached⟩, signs⟩
          · cases stepped
            exact before signed
      | forge forger forged =>
          cases stepped
          rcases List.mem_append.mp signed with earlier | new
          · exact before earlier
          · cases List.mem_singleton.mp new
            exact .inl (by simp)

theorem faulty_of_forge {start : Network Id} {operator : Id} {hash : Bytes32}
    (meets : (machine formats keccak crate verifier).Meets (RunsCode faulty) start labels)
    (ran : (machine formats keccak crate verifier).run start labels = some finish)
    (member : .forge operator hash ∈ labels) : operator ∈ faulty := by
  obtain ⟨earlier, later, rfl⟩ := List.append_of_mem member
  rw [Machine.run_append] at ran
  obtain ⟨network, reached, -⟩ := Option.bind_eq_some_iff.mp ran
  exact (meets.of_append reached).2.1

/-! ## The signers of an answered task -/

variable [DecidableEq Id]

/-- An operator that runs the code has signed the batch of every answered task. -/
theorem handled_of_answered {batchMerkleRoot : Bytes32} {senderAddress : Address}
    (runsCode : (machine formats keccak crate verifier).Meets (RunsCode faulty)
      (deploy contract) labels)
    (counts : (machine formats keccak crate verifier).Meets (CountsSignatures operators stake)
      (deploy contract) labels)
    (tolerates : ∀ block, (quorums operators stake block).Tolerates faulty)
    (ran : (machine formats keccak crate verifier).run (deploy contract) labels = some finish)
    (answered : TaskAnswered keccak contract (labels.filterMap Label.call) batchMerkleRoot
      senderAddress) :
    ∃ operator ∉ faulty, ∃ newBatchLog processing network,
      Handled formats keccak crate verifier contract labels operator newBatchLog processing
        network (batchIdentifier keccak batchMerkleRoot senderAddress) := by
  obtain ⟨before, caller, gas, checkSignatures, block, totals, -, ⟨⟨later, split⟩, -⟩, checked,
    signedStake, totalStake, isSigned, isTotal, share⟩ := answered
  obtain ⟨earlier, rest, rfl, network, reached⟩ := exists_before_of_call split ran
  have countsHere := (counts.of_append reached).2.1
  obtain ⟨signers, members, signed, sameSigned, sameTotal⟩ := countsHere _ _ _ checked
  rw [sameSigned, Option.some.injEq] at isSigned
  rw [sameTotal, Option.some.injEq] at isTotal
  subst isSigned
  subst isTotal
  have quorum : (quorums operators stake block).IsQuorum signers := ⟨members, share⟩
  obtain ⟨operator, isSigner, correct⟩ := Quorums.exists_correct quorum (tolerates block)
  refine ⟨operator, correct, ?_⟩
  rcases signatures_run reached (signed operator isSigner) with forged |
    ⟨newBatchLog, processing, there, ⟨handledBefore, isPrefix, ranBefore⟩, signs⟩
  · exact absurd (faulty_of_forge (runsCode.of_append reached).1 reached forged) correct
  · exact ⟨newBatchLog, processing, there,
      ⟨handledBefore, isPrefix.trans (List.prefix_append _ _), ranBefore⟩, signs⟩

/-! ## Included commitments -/

/-- Everything hashed in the calls, for the logs that operators processed, and
in the trees of the batches that they downloaded. -/
def hashedInRun (formats : Formats) (keccak : Bytes → Bytes32) (labels : List (Label Id))
    (commitment : VerificationDataCommitment) (batchMerkleRoot : Bytes32) (merkleProof : Bytes)
    (verificationDataBatchIndex : Nat) (senderAddress : Address) : Set Bytes :=
  {message | message ∈ hashedForInclusion keccak (labels.filterMap Label.call) commitment
      batchMerkleRoot merkleProof verificationDataBatchIndex senderAddress [] ∨
    ∃ operator newBatchLog processing,
      Label.handleNewBatchLogV3 operator newBatchLog processing ∈ labels ∧
        (message = identifierBytes newBatchLog.batchMerkleRoot newBatchLog.senderAddress ∨
          ∃ batchBytes batch, some batchBytes ∈ processing.answers ∧
            decodedBatch formats batchBytes = some batch ∧
            message ∈ hashedMessages keccak nodeBytes
              ((batch.map (VerificationDataCommitment.ofVerificationData keccak)).map leafBytes)
              (siblingsOf merkleProof) verificationDataBatchIndex (leafBytes commitment))}

omit [DecidableEq Id] in
/-- A leaf from which a path leads to the root of a batch is one of the batch. -/
theorem mem_of_climbs {batch : List VerificationDataCommitment}
    {commitment : VerificationDataCommitment} {batchMerkleRoot : Bytes32} {merkleProof : Bytes}
    {index : Nat}
    (free : Set.InjOn keccak {message | message ∈ hashedMessages keccak nodeBytes
      (batch.map leafBytes) (siblingsOf merkleProof) index (leafBytes commitment)})
    (isRoot : MerkleTree.root (hashNewParent keccak) (batch.map (hashData keccak)) =
      some batchMerkleRoot)
    (climbed : climb (hashNewParent keccak) (siblingsOf merkleProof) index
      (keccak (leafBytes commitment)) = batchMerkleRoot) : commitment ∈ batch := by
  have leafLength : ∀ leaf ∈ leafBytes commitment :: batch.map leafBytes, leaf.length = 116 := by
    intro leaf member
    rcases List.mem_cons.mp member with rfl | inBatch
    · exact length_leafBytes commitment
    · obtain ⟨original, -, rfl⟩ := List.mem_map.mp inBatch
      exact length_leafBytes original
  have member : leafBytes commitment ∈ batch.map leafBytes := by
    refine mem_of_climb (fun left right left' right' same => .inl (nodeBytes_injective same))
      ?_ free ?_
    · intro leaf isLeaf left right same
      have length := leafLength leaf isLeaf
      rw [same, length_nodeBytes] at length
      exact absurd length (by decide)
    · rw [List.map_map]
      exact isRoot.trans (congrArg some climbed.symm)
  obtain ⟨original, isMember, same⟩ := List.mem_map.mp member
  rw [← leafBytes_injective same]
  exact isMember

/-- An accepted commitment is the one of a proof in a batch for which an
operator with the code returned nil, while the proof's system was enabled. -/
theorem included_proofs_verified (formats : Formats) (keccak : Bytes → Bytes32)
    (crate : MerkleTreeCrate VerificationDataCommitment Bytes32)
    (documented : crate.Documented (hashData keccak) (hashNewParent keccak))
    (verifier : VerifierCall → Bool)
    (verifyInclusionKeccak : Bytes → Bytes32 → Bytes32 → Nat → Except Revert Bool)
    (parity : VerifiesByParity keccak verifyInclusionKeccak)
    (operators faulty : Finset Id) (stake : Nat → Id → Nat)
    (tolerates : ∀ block, (quorums operators stake block).Tolerates faulty)
    (deployed : Contract) (fresh : deployed.Fresh) (labels : List (Label Id))
    (finish : Network Id)
    (runsCode : (machine formats keccak crate verifier).Meets (RunsCode faulty)
      (deploy deployed) labels)
    (counts : (machine formats keccak crate verifier).Meets (CountsSignatures operators stake)
      (deploy deployed) labels)
    (ran : (machine formats keccak crate verifier).run (deploy deployed) labels = some finish)
    (commitment : VerificationDataCommitment) (batchMerkleRoot : Bytes32) (merkleProof : Bytes)
    (verificationDataBatchIndex : Nat) (senderAddress : Address)
    (free : Set.InjOn keccak (hashedInRun formats keccak labels commitment batchMerkleRoot
      merkleProof verificationDataBatchIndex senderAddress))
    (accepted : finish.contract.verifyBatchInclusion keccak verifyInclusionKeccak commitment
      batchMerkleRoot merkleProof verificationDataBatchIndex senderAddress = .ok true) :
    ∃ operator ∉ faulty, ∃ processing network,
      Handled formats keccak crate verifier deployed labels operator
        ⟨batchMerkleRoot, senderAddress⟩ processing network
        (batchIdentifier keccak batchMerkleRoot senderAddress) ∧
      ∃ batchBytes batch data, some batchBytes ∈ processing.answers ∧
        decodedBatch formats batchBytes = some batch ∧ data ∈ batch ∧
        VerificationDataCommitment.ofVerificationData keccak data = commitment ∧
        (BytesReadAlike formats batchBytes →
          verify verifier network.contract.disabledVerifiers (.ofSdk data) = true) := by
  rw [contract_run ran] at accepted
  have answered : TaskAnswered keccak deployed (labels.filterMap Label.call) batchMerkleRoot
      senderAddress :=
    answered_of_accepted fresh parity (free.mono fun message member => .inl member) accepted
  obtain ⟨-, -, climbed⟩ := verifyBatchInclusion_ok parity accepted
  obtain ⟨operator, correct, newBatchLog, processing, network, ⟨earlier, isPrefix, reached⟩,
    signs⟩ := handled_of_answered runsCode counts tolerates ran answered
  have inLabels : Label.handleNewBatchLogV3 operator newBatchLog processing ∈ labels :=
    isPrefix.subset (by simp)
  obtain ⟨processed, identified⟩ :
      processNewBatchLogV3 formats keccak crate verifier newBatchLog
          network.contract.disabledVerifiers processing = some true ∧
        batchIdentifier keccak newBatchLog.batchMerkleRoot newBatchLog.senderAddress =
          batchIdentifier keccak batchMerkleRoot senderAddress := by
    rw [Operator.handleNewBatchLogV3] at signs
    split at signs
    · rename_i processed
      exact ⟨processed, Option.some.inj signs⟩
    · cases signs
  -- The signed identifier names the log, which is therefore the one of the batch.
  obtain ⟨sameRoot, sameSender⟩ : newBatchLog.batchMerkleRoot = batchMerkleRoot ∧
      newBatchLog.senderAddress = senderAddress := by
    apply identifierBytes_injective
    apply free
    · exact .inr ⟨operator, newBatchLog, processing, inLabels, .inl rfl⟩
    · exact .inl (List.mem_append_left _ List.mem_cons_self)
    · exact identified
  obtain ⟨root, sender⟩ := newBatchLog
  subst sameRoot
  subst sameSender
  obtain ⟨verifiedBatch, downloaded, verified⟩ := verified_of_processed processed
  obtain ⟨batchBytes, isAnswer, read⟩ := getBatch_of_downloaded downloaded
  obtain ⟨checked, unmarshalled⟩ := getBatch_eq_some read
  obtain ⟨batch, decoded, built⟩ := build_of_verified checked
  have member : commitment ∈
      batch.map (VerificationDataCommitment.ofVerificationData keccak) := by
    refine mem_of_climbs (free.mono ?_) ?_ climbed
    · intro message isHashed
      exact .inr ⟨operator, _, processing, inLabels, .inr ⟨batchBytes, batch, isAnswer, decoded,
        isHashed⟩⟩
    · rw [← documented.build]
      exact built
  obtain ⟨data, inBatch, same⟩ := List.mem_map.mp member
  refine ⟨operator, correct, processing, network, ⟨⟨earlier, isPrefix, reached⟩, signs⟩,
    batchBytes, batch, data, isAnswer, decoded, inBatch, same, ?_⟩
  intro alike
  have isMapped := batch_eq_of_readAlike alike decoded unmarshalled
  apply verified
  rw [isMapped]
  exact List.mem_map_of_mem inBatch

namespace Sample

def data : AlignedLayer.VerificationData :=
  ⟨.sp1, [7], some [1], none, none, 1⟩

def batchRoot : Bytes32 :=
  data.leafHash Keccak256.keccak256

def reference : MerkleTreeCrate VerificationDataCommitment Bytes32 :=
  .reference (hashData Keccak256.keccak256) (hashNewParent Keccak256.keccak256)

/-- The first answer is missing, and one worker verifies the second one. -/
def processing : Processing where
  answers := [none, some (singleProof "pub_input")]
  bitmapRead := true
  numCPU := 1
  schedule := [.process, .process, .process, .process, .worker 0, .worker 0, .worker 0, .closer,
    .process, .process]

def identifier : Bytes32 :=
  batchIdentifier Keccak256.keccak256 batchRoot 7

/-- Signatures count for the batch only. -/
def checkSignatures (hash : Bytes32) (_ : Nat) : Except Revert QuorumStakeTotals :=
  if hash = identifier then .ok ⟨[80], [100]⟩ else .error .libraryRevert

def creation : Call :=
  .createNewTask 1 ⟨7, 0⟩ batchRoot 0

def answer : Call :=
  .respondToTaskV2 5 ⟨0, 0⟩ checkSignatures batchRoot 7

/-- Two of three operators verify the batch, the third one signs something. -/
def answeredBatch : List (Label (Fin 3)) :=
  [.transaction creation, .handleNewBatchLogV3 0 ⟨batchRoot, 7⟩ processing, .forge 2 Bytes32.zero,
    .handleNewBatchLogV3 1 ⟨batchRoot, 7⟩ processing, .transaction answer]

def signatures : List (Fin 3 × Bytes32) :=
  [(0, identifier), (2, Bytes32.zero), (1, identifier)]

def stakes (_ : Nat) (operator : Fin 3) : Nat :=
  if operator = 2 then 20 else 40

theorem decoded : decodedBatch DefiniteCbor.formats (singleProof "pub_input") = some [data] := by
  decide +kernel

theorem handled :
    Operator.handleNewBatchLogV3 DefiniteCbor.formats Keccak256.keccak256 reference (fun _ => true)
      ⟨batchRoot, 7⟩ 0 processing = some identifier := by
  have checked := verified_single Keccak256.keccak256 (by decide) decoded
  have read : getBatchFromDataService DefiniteCbor.formats Keccak256.keccak256 reference
      (singleProof "pub_input") batchRoot = some [.ofSdk data] := by
    rw [getBatchFromDataService, reference, batchRoot, if_pos checked]
    decide +kernel
  have downloaded : getBatchFromDataServiceWithMultipleURLs DefiniteCbor.formats
      Keccak256.keccak256 reference processing.answers batchRoot = some [.ofSdk data] := by
    simp only [getBatchFromDataServiceWithMultipleURLs, processing, List.findSome?_cons, bind,
      Option.bind_none, Option.bind_some, read]
  have processed : processNewBatchLogV3 DefiniteCbor.formats Keccak256.keccak256 reference
      (fun _ => true) ⟨batchRoot, 7⟩ 0 processing = some true := by
    rw [processNewBatchLogV3, downloaded]
    decide +kernel
  rw [Operator.handleNewBatchLogV3, processed]
  rfl

/-- The identifier and the leaf are all that is hashed. -/
theorem hashed_subset : hashedInRun DefiniteCbor.formats Keccak256.keccak256 answeredBatch
      (VerificationDataCommitment.ofVerificationData Keccak256.keccak256 data) batchRoot [] 0 7 ⊆
    {message | message ∈ [identifierBytes batchRoot 7,
      leafBytes (VerificationDataCommitment.ofVerificationData Keccak256.keccak256 data)]} := by
  rintro message (inCalls | ⟨operator, newBatchLog, processing, inLabels, fromLog⟩)
  · revert message
    decide +kernel
  · have same : newBatchLog = ⟨batchRoot, 7⟩ ∧ processing = Sample.processing := by
      simp only [answeredBatch, List.mem_cons, reduceCtorEq, false_or, or_false,
        Label.handleNewBatchLogV3.injEq, List.not_mem_nil] at inLabels
      rcases inLabels with ⟨-, log, run⟩ | ⟨-, log, run⟩
      · exact ⟨log, run⟩
      · exact ⟨log, run⟩
    obtain ⟨rfl, rfl⟩ := same
    rcases fromLog with rfl | ⟨batchBytes, batch, isAnswer, isDecoded, inTree⟩
    · exact List.mem_cons_self
    · have bytes : batchBytes = singleProof "pub_input" := by
        simpa [Sample.processing] using isAnswer
      rw [bytes, decoded, Option.some.injEq] at isDecoded
      subst isDecoded
      revert message
      decide +kernel

end Sample

theorem included_proofs_verified_twoOfThree :
    ∃ finish, (machine DefiniteCbor.formats Keccak256.keccak256 Sample.reference
        (fun _ => true)).run (deploy AlignedLayerServiceManager.Sample.deployed)
        Sample.answeredBatch = some finish ∧
      ∃ operator ∉ ({2} : Finset (Fin 3)), ∃ processing network,
        Handled DefiniteCbor.formats Keccak256.keccak256 Sample.reference (fun _ => true)
          AlignedLayerServiceManager.Sample.deployed Sample.answeredBatch operator
          ⟨Sample.batchRoot, 7⟩ processing network Sample.identifier := by
  have handled := Sample.handled
  have enabled : (AlignedLayerServiceManager.Sample.deployed.transact Keccak256.keccak256
      Sample.creation).disabledVerifiers = 0 := by decide +kernel
  have ran : (machine DefiniteCbor.formats Keccak256.keccak256
      Sample.reference (fun _ => true)).run (deploy AlignedLayerServiceManager.Sample.deployed)
      Sample.answeredBatch = some
        ⟨AlignedLayerServiceManager.Sample.deployed.run Keccak256.keccak256
          [Sample.creation, Sample.answer], Sample.signatures⟩ := by
    simp only [Machine.run, machine, step, Sample.answeredBatch, deploy, sign, enabled, handled,
      Option.bind_some, Contract.run, List.foldl_cons, List.foldl_nil, Sample.signatures,
      List.nil_append, List.cons_append]
  have accepted : (AlignedLayerServiceManager.Sample.deployed.run Keccak256.keccak256
      [Sample.creation, Sample.answer]).verifyBatchInclusion Keccak256.keccak256
      (Merkle.verifyInclusionKeccak Keccak256.keccak256)
      (VerificationDataCommitment.ofVerificationData Keccak256.keccak256 Sample.data)
      Sample.batchRoot [] 0 7 = .ok true := by
    decide +kernel
  have runsCode : (machine DefiniteCbor.formats Keccak256.keccak256
      Sample.reference (fun _ => true)).Meets (RunsCode {2})
      (deploy AlignedLayerServiceManager.Sample.deployed) Sample.answeredBatch :=
    ⟨trivial, fun _ _ => ⟨trivial, fun _ _ => ⟨Finset.mem_singleton_self 2, fun _ _ =>
      ⟨trivial, fun _ _ => ⟨trivial, fun _ _ => trivial⟩⟩⟩⟩⟩
  have counts : (machine DefiniteCbor.formats Keccak256.keccak256
      Sample.reference (fun _ => true)).Meets (CountsSignatures Finset.univ Sample.stakes)
      (deploy AlignedLayerServiceManager.Sample.deployed) Sample.answeredBatch := by
    refine ⟨trivial, fun one first => ⟨trivial, fun two second => ⟨trivial, fun three third =>
      ⟨trivial, fun four fourth => ⟨?_, fun _ _ => trivial⟩⟩⟩⟩⟩
    simp only [machine, step, deploy, Option.some.injEq] at first
    subst first
    simp only [machine, step, enabled, handled, Option.some.injEq] at second
    subst second
    simp only [machine, step, Option.some.injEq] at third
    subst third
    simp only [machine, step, sign, enabled, handled, Option.some.injEq] at fourth
    subst fourth
    intro hash block totals checked
    rw [Sample.checkSignatures] at checked
    split at checked
    · rename_i same
      cases checked
      refine ⟨{0, 1}, Finset.subset_univ _, ?_, rfl, rfl⟩
      intro operator isSigner
      rw [same]
      rcases Finset.mem_insert.mp isSigner with rfl | isOne
      · exact List.mem_cons_self
      · rw [Finset.mem_singleton.mp isOne]
        simp
    · cases checked
  have tolerates : ∀ block, (quorums Finset.univ Sample.stakes block).Tolerates {2} := by
    intro block
    change 20 * 100 < 100 * 67
    decide
  have free : Set.InjOn Keccak256.keccak256 (hashedInRun DefiniteCbor.formats
      Keccak256.keccak256 Sample.answeredBatch
      (VerificationDataCommitment.ofVerificationData Keccak256.keccak256 Sample.data)
      Sample.batchRoot [] 0 7) :=
    (injOn_of_nodup (fun message member => member) (by decide +kernel)).mono Sample.hashed_subset
  generalize AlignedLayerServiceManager.Sample.deployed.run Keccak256.keccak256
    [Sample.creation, Sample.answer] = contract at ran accepted
  have verified := included_proofs_verified DefiniteCbor.formats Keccak256.keccak256
    Sample.reference (MerkleTreeCrate.reference_documented _ _) (fun _ => true)
    (Merkle.verifyInclusionKeccak Keccak256.keccak256) (Merkle.verifiesByParity _) Finset.univ {2}
    Sample.stakes tolerates AlignedLayerServiceManager.Sample.deployed
    ⟨fun _ => rfl, fun _ => rfl⟩ Sample.answeredBatch _ runsCode counts ran
    (VerificationDataCommitment.ofVerificationData Keccak256.keccak256 Sample.data)
    Sample.batchRoot [] 0 7 free accepted
  obtain ⟨operator, correct, processing, network, handledBy, -⟩ := verified
  exact ⟨_, ran, operator, correct, processing, network, handledBy⟩

end Network

end AlignedLayer.Operator
