import AlignedLayer.AggregationMode.S3
import AlignedLayer.Batcher.PublishedBatches
import AlignedLayer.Operator.BatchRoots
import AlignedLayer.Operator.DataService
import AlignedLayer.Operator.EncodedBatches

/-!
# From the batcher to its readers

The operators and the aggregation mode follow the pointer of a transaction to
what the batcher has stored.  Neither reads anything but the data of a batch
with the root of the transaction, and both read it where one URL answers.
-/

namespace AlignedLayer

open VerificationCommitmentBatch

/-- The data have the root of the transaction, so without a collision they are
the proofs of the transaction. -/
structure ReadFor (environment : Environment) (transaction : Transaction)
    (data : List VerificationData) : Prop where
  root : environment.merkleRoot
    (data.map (VerificationDataCommitment.ofVerificationData environment.keccak)) =
      transaction.call.batchMerkleRoot
  proofs : Set.InjOn environment.keccak {message |
      message ∈ batchMessages environment.keccak
        (transaction.entries.map BatchQueueEntry.verificationDataCommitment) ∨
      message ∈ batchMessages environment.keccak
        (data.map (VerificationDataCommitment.ofVerificationData environment.keccak))} →
    SameProofs (transaction.entries.map BatchQueueEntry.verificationDataCommitment)
      (data.map (VerificationDataCommitment.ofVerificationData environment.keccak))

/-- An object that every reader can read. -/
structure BatchObject (config : Config) (data : List VerificationData) (bytes : Bytes) :
    Prop where
  serialized : bytes = cborSerialize data
  nonempty : data ≠ []
  size_le : bytes.length ≤ config.maxBatchByteSize
  length_le : data.length ≤ config.maxBatchProofQty

section

variable {environment : Environment} {config : Config} {services : DataServices}
  {isWhitespace : Char → Bool}

/-! ## The URLs of a pointer -/

/-- Both readers take a pointer apart into URLs of the file that have objects. -/
theorem Locates.parsed {objects : Objects} {root : Bytes32} {pointer : String}
    (locates : Locates services objects (fileName root) pointer)
    (sees : SeesGraphic isWhitespace)
    (plain : ∀ endpoint ∈ services.endpoints, PlainText isWhitespace endpoint) :
    ∃ urls, Operator.parseBatchURLs isWhitespace pointer = urls ∧
      AggregationMode.parseBatchUrls isWhitespace pointer = urls ∧
      ∀ url ∈ urls, (∃ endpoint ∈ services.endpoints, url = objectUrl endpoint (fileName root)) ∧
        (objects url).isSome := by
  obtain ⟨urls, nonempty, tried, rfl, present⟩ := locates.found
  have named : ∀ url ∈ urls, ∃ endpoint ∈ services.endpoints,
      url = objectUrl endpoint (fileName root) := by
    intro url member
    obtain ⟨endpoint, isEndpoint, rfl⟩ := List.mem_map.mp (tried.subset member)
    exact ⟨endpoint, isEndpoint, rfl⟩
  have trimmed : trimmedSegments isWhitespace (",".intercalate urls) = urls := by
    apply trimmedSegments_intercalate nonempty
    · intro url member
      obtain ⟨endpoint, isEndpoint, rfl⟩ := named url member
      exact plainText_objectUrl sees (plain endpoint isEndpoint) root
    · intro url member
      obtain ⟨endpoint, isEndpoint, rfl⟩ := named url member
      exact objectUrl_ne_empty endpoint root
  have few : urls.length ≤ 2 := by
    apply Nat.le_trans tried.length_le
    rw [List.length_map, DataServices.endpoints, List.length_cons]
    cases services.downloadEndpointSecondary with
    | none => exact Nat.le_succ 1
    | some endpoint => exact Nat.le_refl 2
  refine ⟨urls, ?_, ?_, fun url member => ⟨named url member, present url member⟩⟩
  · rw [parseBatchURLs_eq, trimmed, Operator.maxBatchURLs]
    exact List.take_of_length_le (by omega)
  · rw [parseBatchUrls_eq, trimmed, AggregationMode.maxBatchUrls]
    exact List.take_of_length_le (by omega)

/-! ## What is stored there -/

theorem Uploadable.commitments_eq {entries : List BatchQueueEntry}
    (uploadable : Uploadable environment config entries) :
    (entries.map fun entry => entry.noncedVerificationData.verificationData).map
        (VerificationDataCommitment.ofVerificationData environment.keccak) =
      entries.map BatchQueueEntry.verificationDataCommitment := by
  rw [List.map_map]
  apply List.map_congr_left
  intro entry member
  exact (uploadable.commitments entry member).symm

/-- The objects of a transaction's URLs. -/
theorem Published.readable {state : Publishing}
    (published : Published environment config services state)
    {crate : MerkleTreeCrate VerificationDataCommitment Bytes32}
    (documented : crate.Documented (hashData environment.keccak)
      (hashNewParent environment.keccak))
    (builds : ∀ commitments ≠ [],
      crate.build commitments = some (environment.merkleRoot commitments))
    {transaction : Transaction}
    (member : transaction ∈ state.system.shared.chain.transactions) {endpoint : String}
    {bytes : Bytes}
    (stored : state.objects (objectUrl endpoint (fileName transaction.call.batchMerkleRoot)) =
      some bytes) :
    ∃ data, BatchObject config data bytes ∧ ReadFor environment transaction data := by
  obtain ⟨received, attested⟩ := published.attested
  have sentRoot := (attested.transactions transaction member).batchMerkleRoot
  have sent := published.sent transaction member
  obtain ⟨entries, uploadable, rfl, other, -, sameUrl⟩ := published.holds _ _ stored
  have sameRoot := root_of_objectUrl sameUrl
  refine ⟨entries.map fun entry => entry.noncedVerificationData.verificationData, ?_, ?_⟩
  · refine ⟨rfl, ?_, uploadable.size_le, ?_⟩
    · rw [ne_eq, List.map_eq_nil_iff]
      exact uploadable.nonempty
    · rw [List.length_map]
      exact uploadable.length_le
  · constructor
    · rw [uploadable.commitments_eq]
      exact sameRoot.symm
    · intro free
      rw [uploadable.commitments_eq] at free ⊢
      apply sameProofs_of_build documented free
      · apply builds
        rw [ne_eq, List.map_eq_nil_iff]
        exact sent.nonempty
      · rw [builds _ (by rw [ne_eq, List.map_eq_nil_iff]; exact uploadable.nonempty),
          ← sentRoot, sameRoot]

/-! ## Readers -/

variable {formats : Formats} {crate : MerkleTreeCrate VerificationDataCommitment Bytes32}
  {transaction : Transaction} {data : List VerificationData} {bytes : Bytes}

/-- An operator that reads what was stored gets the data. -/
theorem BatchObject.operator (object : BatchObject config data bytes)
    (readFor : ReadFor environment transaction data) (reads : Operator.ReadsBatches formats)
    (builds : ∀ commitments ≠ [],
      crate.build commitments = some (environment.merkleRoot commitments))
    (sizes : config.maxBatchByteSize < 2 ^ 64)
    (few : config.maxBatchProofQty ≤ Operator.maxArrayElements) :
    Operator.getBatchFromDataService formats environment.keccak crate bytes
      transaction.call.batchMerkleRoot = some (data.map .ofSdk) := by
  obtain ⟨rfl, nonempty, size_le, length_le⟩ := object
  have isRoot : crate.build
      (data.map (VerificationDataCommitment.ofVerificationData environment.keccak)) =
        some transaction.call.batchMerkleRoot := by
    rw [← readFor.root]
    apply builds
    rw [ne_eq, List.map_eq_nil_iff]
    exact nonempty
  rw [Operator.getBatch_written reads environment.keccak crate nonempty
    (Nat.lt_of_le_of_lt size_le sizes) (Nat.le_trans length_le few), if_pos isRoot]

theorem BatchObject.aggregator (object : BatchObject config data bytes)
    (documented : formats.Documented) (sizes : config.maxBatchByteSize < 2 ^ 64) :
    Deserialize.fromReader formats bytes = some data := by
  obtain ⟨rfl, -, size_le, -⟩ := object
  exact Operator.fromReader_written documented (Nat.lt_of_le_of_lt size_le sizes)

end

/-- In every run, each transaction carries a pointer, and as long as servers
answer with what is stored or not at all, everybody who follows the pointer
reads the data of a batch with the root of the transaction or nothing, and
reads them if one URL delivers in time. -/
theorem published_batches_available (formats : Formats) (reads : Operator.ReadsBatches formats)
    (environment : Environment) (config : Config) (services : DataServices)
    (crate : MerkleTreeCrate VerificationDataCommitment Bytes32)
    (documented : crate.Documented (hashData environment.keccak)
      (hashNewParent environment.keccak))
    (builds : ∀ commitments ≠ [],
      crate.build commitments = some (environment.merkleRoot commitments))
    (isWhitespace : Char → Bool) (sees : SeesGraphic isWhitespace)
    (plain : ∀ endpoint ∈ services.endpoints, PlainText isWhitespace endpoint)
    (sizes : config.maxBatchByteSize < 2 ^ 64)
    (few : config.maxBatchProofQty ≤ Operator.maxArrayElements)
    (chain : Chain) (fresh : chain.Fresh) (disabledVerifiers lastUploadedBatchBlock : Nat)
    (labels : List Publishing.Label) (finish : Publishing)
    (ran : (Publishing.machine environment config services).run
      (.initial (initialSystem config chain disabledVerifiers lastUploadedBatchBlock)) labels =
        some finish)
    (transaction : Transaction)
    (member : transaction ∈ finish.system.shared.chain.transactions) :
    ∃ pointer, finish.batchDataPointers transaction.batchNumber = some pointer ∧
      (∀ maxBatchSize requests,
        Operator.Served finish.objects (Operator.parseBatchURLs isWhitespace pointer) requests →
        let batch := Operator.getBatchFromDataServices formats environment.keccak crate
          isWhitespace maxBatchSize requests pointer transaction.call.batchMerkleRoot
        (∀ verified, batch = some verified →
          ∃ data, verified = data.map .ofSdk ∧ ReadFor environment transaction data) ∧
        (Operator.DeliveredInTime (Operator.parseBatchURLs isWhitespace pointer) requests →
          config.maxBatchByteSize ≤ maxBatchSize → batch.isSome)) ∧
      ∀ requests,
        AggregationMode.Served finish.objects
          (AggregationMode.parseBatchUrls isWhitespace pointer) requests →
        let batch := AggregationMode.getAlignedBatchFromS3WithMultipleUrls formats isWhitespace
          requests pointer
        (∀ data, batch = .ok data → ReadFor environment transaction data) ∧
        (AggregationMode.DeliveredInTime
          (AggregationMode.parseBatchUrls isWhitespace pointer) requests →
            ∃ data, batch = .ok data) := by
  have published : Published environment config services finish :=
    Machine.run_invariant (fun holds stepped => holds.step stepped) (.initial fresh _ _) ran
  obtain ⟨pointer, found, locates⟩ := published.transactions transaction member
  obtain ⟨urls, operators, aggregators, present⟩ := locates.parsed sees plain
  have stored : ∀ url ∈ urls, ∀ bytes, finish.objects url = some bytes →
      ∃ data, BatchObject config data bytes ∧ ReadFor environment transaction data := by
    intro url isUrl bytes isObject
    obtain ⟨⟨endpoint, -, rfl⟩, -⟩ := present url isUrl
    exact published.readable documented builds member isObject
  refine ⟨pointer, found, ?_, ?_⟩
  · intro maxBatchSize requests served
    constructor
    · intro verified read
      obtain ⟨url, isUrl, bytes, isObject, decoded⟩ := Operator.getBatch_from_object served read
      rw [operators] at isUrl
      obtain ⟨data, object, readFor⟩ := stored url isUrl bytes isObject
      rw [object.operator readFor reads builds sizes few, Option.some.injEq] at decoded
      exact ⟨data, decoded.symm, readFor⟩
    · intro delivered large
      apply Operator.getBatch_of_deliveredInTime served delivered
      intro url isUrl
      rw [operators] at isUrl
      obtain ⟨bytes, isObject⟩ := Option.isSome_iff_exists.mp (present url isUrl).2
      obtain ⟨data, object, readFor⟩ := stored url isUrl bytes isObject
      refine ⟨bytes, isObject, ?_, ?_⟩
      · exact Int.le_trans (Int.ofNat_le.mpr object.size_le) large
      · rw [object.operator readFor reads builds sizes few]
        rfl
  · intro requests served
    constructor
    · intro data read
      obtain ⟨url, isUrl, bytes, isObject, decoded⟩ :=
        AggregationMode.batch_from_object served read
      rw [aggregators] at isUrl
      obtain ⟨written, object, readFor⟩ := stored url isUrl bytes isObject
      rw [object.aggregator reads.toDocumented sizes, Option.some.injEq] at decoded
      exact decoded ▸ readFor
    · intro delivered
      apply AggregationMode.batch_of_deliveredInTime served delivered
      intro url isUrl
      rw [aggregators] at isUrl
      obtain ⟨bytes, isObject⟩ := Option.isSome_iff_exists.mp (present url isUrl).2
      obtain ⟨data, object, -⟩ := stored url isUrl bytes isObject
      exact ⟨bytes, data, isObject, object.aggregator reads.toDocumented sizes⟩

namespace Sample

def crate : MerkleTreeCrate VerificationDataCommitment Bytes32 :=
  .reference (hashData checksum) (hashNewParent checksum)

def storingEnvironment : Environment where
  keccak := checksum
  merkleRoot commitments := (crate.build commitments).getD Bytes32.zero
  verifySignature := environment.verifySignature

theorem crate_builds (commitments : List VerificationDataCommitment) (nonempty : commitments ≠ []) :
    crate.build commitments = some (storingEnvironment.merkleRoot commitments) := by
  have leaves : commitments.map (hashData checksum) ≠ [] := by
    rw [ne_eq, List.map_eq_nil_iff]
    exact nonempty
  obtain ⟨root, isRoot⟩ := @MerkleTree.exists_root _ (hashNewParent checksum) _ leaves
  have built : crate.build commitments = some root := isRoot
  change crate.build commitments = some ((crate.build commitments).getD Bytes32.zero)
  rw [built, Option.getD_some]

def services : DataServices where
  downloadEndpoint := "https://first"
  downloadEndpointSecondary := some "https://second"

/-- The first bucket confirms the second attempt, the other one none, although
it stores the object. -/
def uploadedOnce : List Publishing.Label :=
  (firstProof 0 1 0 1000000 ++ [Label.extract layout 1 1, .finalize]).map .batcher ++
    [.upload (fun attempt => if attempt = 0 then .failed "SlowDown" false else .confirmed)
      fun _ => .failed "InternalError" true] ++
    [Label.simulate true 1, .send .accepted].map .batcher

def batchMerkleRoot : Bytes32 :=
  word 37

def pointer : String :=
  "https://first/2500000000000000000000000000000000000000000000000000000000000000.json"

def stored : Bytes :=
  cborSerialize [verificationData]

/-- A server that answers the second request. -/
def slowServer (_ : Nat) : Nat → Operator.Attempt
  | 0 => .answered ⟨503, 0, some [], true⟩
  | _ => .answered ⟨200, stored.length, some stored, true⟩

theorem seesGraphic_isWhitespace : SeesGraphic Char.isWhitespace := by
  intro character first last
  simp only [Char.isWhitespace, Bool.or_eq_false_iff, decide_eq_false_iff_not]
  refine ⟨⟨⟨?_, ?_⟩, ?_⟩, ?_⟩
  all_goals
    rintro rfl
    revert first
    decide

theorem plain_endpoints :
    ∀ endpoint ∈ services.endpoints, PlainText Char.isWhitespace endpoint := by
  intro endpoint member
  apply plainText_of_isPlain seesGraphic_isWhitespace
  simp only [services, DataServices.endpoints, Option.toList_some, List.mem_cons,
    List.not_mem_nil, or_false] at member
  rcases member with rfl | rfl
  · rfl
  · rfl

end Sample

theorem published_batches_available_slowServer :
    ∃ finish, (Publishing.machine Sample.storingEnvironment (Sample.config 4) Sample.services).run
        (.initial (Sample.system 4 100000000)) Sample.uploadedOnce = some finish ∧
      ∃ batch, Operator.getBatchFromDataServices DefiniteCbor.formats Sample.checksum Sample.crate
        Char.isWhitespace 100000 Sample.slowServer Sample.pointer Sample.batchMerkleRoot =
          some batch := by
  have facts : ((Publishing.machine Sample.storingEnvironment (Sample.config 4)
      Sample.services).run (.initial (Sample.system 4 100000000)) Sample.uploadedOnce).map
        (fun finish => (finish.batchDataPointers 0, finish.objects Sample.pointer,
          finish.system.shared.chain.transactions.map fun transaction =>
            (transaction.batchNumber, transaction.call.batchMerkleRoot))) =
      some (some Sample.pointer, some Sample.stored, [(0, Sample.batchMerkleRoot)]) := by
    decide +kernel
  obtain ⟨finish, ran, values⟩ := Option.map_eq_some_iff.mp facts
  simp only [Prod.mk.injEq] at values
  obtain ⟨isPointer, isStored, sent⟩ := values
  obtain ⟨transaction, member, same⟩ : ∃ transaction ∈
      finish.system.shared.chain.transactions,
        (transaction.batchNumber, transaction.call.batchMerkleRoot) =
          (0, Sample.batchMerkleRoot) := by
    rw [← List.mem_map, sent]
    exact List.mem_singleton.mpr rfl
  simp only [Prod.mk.injEq] at same
  obtain ⟨number, root⟩ := same
  obtain ⟨pointer, found, operators, -⟩ := published_batches_available DefiniteCbor.formats
    ⟨DefiniteCbor.formats_documented, fun _ _ => rfl⟩ Sample.storingEnvironment (Sample.config 4)
    Sample.services Sample.crate (MerkleTreeCrate.reference_documented _ _) Sample.crate_builds
    Char.isWhitespace Sample.seesGraphic_isWhitespace Sample.plain_endpoints (by decide) (by decide)
    (Sample.chain 100000000) ⟨rfl, rfl⟩ 0 0 Sample.uploadedOnce finish ran transaction member
  rw [number, isPointer, Option.some.injEq] at found
  subst found
  have urls : Operator.parseBatchURLs Char.isWhitespace Sample.pointer = [Sample.pointer] := by
    decide +kernel
  rw [urls, root] at operators
  have served : Operator.Served finish.objects [Sample.pointer] Sample.slowServer := by
    intro position url isUrl attempt
    rw [List.getElem?_eq_some_iff] at isUrl
    obtain ⟨inRange, isUrl⟩ := isUrl
    rw [List.getElem_singleton] at isUrl
    rw [← isUrl, isStored]
    cases attempt with
    | zero =>
        intro successful
        cases successful
    | succ attempt =>
        intro _
        refine ⟨Sample.stored, rfl, ?_⟩
        intro body isBody
        exact (Option.some.inj isBody).symm
  refine ⟨finish, ran, Option.isSome_iff_exists.mp ?_⟩
  apply (operators 100000 Sample.slowServer served).2
  · exact ⟨0, Nat.zero_lt_one, 1, by decide, by decide +kernel, by decide +kernel⟩
  · decide

end AlignedLayer
