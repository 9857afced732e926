import AlignedLayer.Operator.CheckedBytes
import AlignedLayer.Sdk.RoundTrip

/-!
# What operators read of a written batch

The bytes that the batcher writes pass the check of the Merkle root, and the Go
decoder makes of them the data that were written, so that nothing is verified
but what was checked.
-/

namespace AlignedLayer.Operator

/-- The limit `createDecoderMode` sets; that of Go's `int32`. -/
def maxArrayElements : Nat := 2147483647

/-- The decoders as documented: the Go decoder takes arrays up to its limit. -/
structure ReadsBatches (formats : Formats) : Prop extends formats.Documented where
  fxamacker : ∀ data : List AlignedLayer.VerificationData, data.length ≤ maxArrayElements →
    formats.fxamacker (Serialize.batchValue data) = true

namespace Unmarshal

variable {formats : Formats}

theorem record_recordValue (data : AlignedLayer.VerificationData) :
    ∃ found, record .cbor (Serialize.recordValue data) = some found ∧
      ∀ field ∈ fields, found field = Serialize.fieldValue data field := by
  refine ⟨FieldMatching.collectFirst fields Field.name lower
    ((Serialize.fieldValues data).map fun entry => (entry.1.name, entry.2)), ?_, ?_⟩
  · rw [record, Serialize.recordValue]
    dsimp only [Value.untag]
    rw [Serialize.mapM_keys (fun _ => rfl)]
    rfl
  · intro field member
    have exact : ∀ other : Field,
        decide (lower other.name = lower field.name) = decide (other = field) :=
      fun other => decide_eq_decide.mpr lower_name_injective.eq_iff
    rw [FieldMatching.collectFirst_apply lower_name_injective member]
    exact (FieldMatching.valueWhere_named exact).trans (Serialize.find?_fieldValues data field)

/-- An absent field stays empty. -/
theorem field_bytes (content : Option Bytes) :
    field [] (byteSlice formats .cbor) (content.map .bytes) = some (content.getD []) := by
  cases content <;> rfl

theorem provingSystem_name (system : ProvingSystemId) :
    provingSystem .cbor (.text system.name) = some system.toByte.toUInt16 := by
  rw [provingSystem, unmarshalCBOR, unmarshalString]
  dsimp only [Value.untag]
  rw [provingSystemIdFromString_name]
  rfl

theorem verificationData_recordValue (data : AlignedLayer.VerificationData) :
    verificationData formats .cbor (Serialize.recordValue data) = some (.ofSdk data) := by
  obtain ⟨found, isRecord, values⟩ := record_recordValue data
  rw [decoded_fields]
  refine ⟨found, isRecord, ?_, ?_, ?_, ?_, ?_⟩
  · rw [values _ (by decide)]
    exact provingSystem_name _
  · rw [values _ (by decide)]
    rfl
  · rw [values _ (by decide)]
    exact field_bytes _
  · rw [values _ (by decide)]
    exact field_bytes _
  · rw [values _ (by decide)]
    exact field_bytes _

theorem batch_batchValue (data : List AlignedLayer.VerificationData) :
    batch formats .cbor (Serialize.batchValue data) = some (data.map .ofSdk) := by
  rw [Serialize.batchValue, batch]
  dsimp only [Value.untag]
  rw [FieldMatching.mapM_eq_some_iff, List.forall₂_map_left_iff, List.forall₂_map_right_iff,
    List.forall₂_same]
  intro record _
  exact verificationData_recordValue record

end Unmarshal

variable {formats : Formats}

theorem cborSerialize_ne_nil (data : List AlignedLayer.VerificationData) :
    cborSerialize data ≠ [] := by
  intro nothing
  have empty := congrArg List.length nothing
  rw [cborSerialize, Cbor.array, Cbor.head] at empty
  split_ifs at empty <;> simp at empty

variable {data : List AlignedLayer.VerificationData}

theorem fromReader_written (documented : formats.Documented)
    (short : (cborSerialize data).length < 2 ^ 64) :
    Deserialize.fromReader formats (cborSerialize data) = some data := by
  have read := Deserialize.fromReader_cborSerialize documented short []
  rw [List.append_nil] at read
  exact read

theorem cborItem_written (documented : formats.Documented)
    (short : (cborSerialize data).length < 2 ^ 64) :
    formats.cborItem (cborSerialize data) = some (Serialize.batchValue data, []) := by
  have written := encodes_cborSerialize short 0 []
  rw [List.append_nil] at written
  exact documented.cborItem 3 (by decide) _ _ _ written

theorem decodedBatch_written (documented : formats.Documented)
    (short : (cborSerialize data).length < 2 ^ 64) :
    decodedBatch formats (cborSerialize data) = some data := by
  rw [decodedBatch, fromReader_written documented short]
  rfl

/-- The Go decoder reads a batch as the Rust library wrote it. -/
theorem unmarshal_written (reads : ReadsBatches formats)
    (short : (cborSerialize data).length < 2 ^ 64) (few : data.length ≤ maxArrayElements) :
    Unmarshal.cbor formats (cborSerialize data) = some (data.map .ofSdk) := by
  rw [Unmarshal.cbor, cborItem_written reads.toDocumented short]
  dsimp only
  rw [if_pos (reads.fxamacker data few), Unmarshal.batch_batchValue]

theorem bytesReadAlike_written (documented : formats.Documented)
    (short : (cborSerialize data).length < 2 ^ 64) :
    BytesReadAlike formats (cborSerialize data) := by
  have read := fromReader_written documented short
  have isItem := cborItem_written documented short
  constructor
  · intro _ item itemIs _
    obtain ⟨written, rest, writtenIs, checked⟩ := fromReader_eq_some read
    rw [isItem] at itemIs writtenIs
    cases itemIs
    cases writtenIs
    apply (batch_eq_iff checked).mp
    intro batch unmarshalled
    rw [Unmarshal.batch_batchValue] at unmarshalled
    exact (Option.some.inj unmarshalled).symm
  · intro failed
    rw [read] at failed
    cases failed

/-- Written bytes pass the check under the root of the data, and no other. -/
theorem innerVerify_written (documented : formats.Documented) {keccak : Bytes → Bytes32}
    {crate : MerkleTreeCrate VerificationDataCommitment Bytes32} (nonempty : data ≠ [])
    (short : (cborSerialize data).length < 2 ^ 64) {merkleRoot : Bytes32} :
    innerVerifyMerkleTreeBatchFfi formats keccak crate (cborSerialize data) merkleRoot = true ↔
      crate.build (data.map (VerificationDataCommitment.ofVerificationData keccak)) =
        some merkleRoot := by
  have notEmpty : ¬ data.isEmpty = true := by
    rw [List.isEmpty_iff]
    exact nonempty
  simp only [innerVerifyMerkleTreeBatchFfi, if_neg (cborSerialize_ne_nil data),
    decodedBatch_written documented short, if_neg notEmpty]
  cases crate.build (data.map (VerificationDataCommitment.ofVerificationData keccak)) with
  | none => simp
  | some computed => simp

theorem getBatch_written (reads : ReadsBatches formats) (keccak : Bytes → Bytes32)
    (crate : MerkleTreeCrate VerificationDataCommitment Bytes32) (nonempty : data ≠ [])
    (short : (cborSerialize data).length < 2 ^ 64) (few : data.length ≤ maxArrayElements)
    (expectedMerkleRoot : Bytes32) :
    getBatchFromDataService formats keccak crate (cborSerialize data) expectedMerkleRoot =
      if crate.build (data.map (VerificationDataCommitment.ofVerificationData keccak)) =
          some expectedMerkleRoot then
        some (data.map .ofSdk)
      else
        none := by
  rw [getBatchFromDataService, unmarshal_written reads short few]
  by_cases isRoot : crate.build
      (data.map (VerificationDataCommitment.ofVerificationData keccak)) = some expectedMerkleRoot
  · rw [if_pos ((innerVerify_written reads.toDocumented nonempty short).mpr isRoot),
      if_pos isRoot]
    rfl
  · rw [if_neg (mt (innerVerify_written reads.toDocumented nonempty short).mp isRoot),
      if_neg isRoot]

/-- Every batch that is not empty is read back from its bytes as it was written,
by the Rust decoder and by the Go decoder; under the root of its commitments,
and under no other, the operator takes these bytes and gets the data to verify
from them. -/
theorem batches_survive_encoding (formats : Formats) (reads : ReadsBatches formats)
    (keccak : Bytes → Bytes32) (crate : MerkleTreeCrate VerificationDataCommitment Bytes32)
    (data : List AlignedLayer.VerificationData) (nonempty : data ≠ [])
    (short : (cborSerialize data).length < 2 ^ 64) (few : data.length ≤ maxArrayElements) :
    decodedBatch formats (cborSerialize data) = some data ∧
      Unmarshal.cbor formats (cborSerialize data) = some (data.map .ofSdk) ∧
      BytesReadAlike formats (cborSerialize data) ∧
      ∀ expectedMerkleRoot,
        getBatchFromDataService formats keccak crate (cborSerialize data) expectedMerkleRoot =
          if crate.build (data.map (VerificationDataCommitment.ofVerificationData keccak)) =
              some expectedMerkleRoot then
            some (data.map .ofSdk)
          else
            none := by
  exact ⟨decodedBatch_written reads.toDocumented short, unmarshal_written reads short few,
    bytesReadAlike_written reads.toDocumented short,
    getBatch_written reads keccak crate nonempty short few⟩

/-- Two proofs, with and without the optional fields. -/
def Sample.written : List AlignedLayer.VerificationData :=
  [⟨.sp1, [7], some [1], none, some [2], 1⟩, ⟨.gnarkPlonkBn254, [8, 9], some [], some [3], none, 2⟩]

theorem batches_survive_encoding_two :
    decodedBatch DefiniteCbor.formats (cborSerialize Sample.written) = some Sample.written ∧
      Unmarshal.cbor DefiniteCbor.formats (cborSerialize Sample.written) =
        some (Sample.written.map .ofSdk) := by
  have survives := batches_survive_encoding DefiniteCbor.formats
    ⟨DefiniteCbor.formats_documented, fun _ _ => rfl⟩ (fun _ => Bytes32.zero)
    (.reference (fun _ => Bytes32.zero) fun left _ => left) Sample.written (by decide)
    (by decide +kernel) (by decide)
  exact ⟨survives.1, survives.2.1⟩

end AlignedLayer.Operator
