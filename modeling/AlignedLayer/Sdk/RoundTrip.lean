import AlignedLayer.Sdk.Serialize
import Mathlib.Algebra.Order.BigOperators.Group.List

/-!
# Reading back what was written

`cbor_serialize` writes CBOR with definite lengths.  A decoder of such documents
reads every item back as the value it stands for, and `serde` makes of these
values the verification data that were written.
-/

namespace AlignedLayer

namespace DefiniteCbor

/-- The bytes are read as this value, whatever follows them. -/
def Encodes (depth : Nat) (bytes : Bytes) (value : Value) : Prop :=
  ∀ rest, item depth (bytes ++ rest) = some (value, rest)

/-! ## Heads -/

theorem foldl_bigEndian (width number : Nat) :
    (Cbor.bigEndian width number).foldl (fun sum byte => 256 * sum + byte.toNat) 0 =
      number % 256 ^ width := by
  induction width generalizing number with
  | zero => rw [Nat.pow_zero, Nat.mod_one]; rfl
  | succ width induction =>
      have power : 256 ^ (width + 1) = 256 * 256 ^ width := Nat.pow_succ'
      rw [Cbor.bigEndian, List.foldl_append, induction, List.foldl_cons, List.foldl_nil,
        UInt8.toNat_ofNat', power, Nat.mod_mul]
      omega

private theorem initial_toNat {major info : Nat} (isMajor : major < 8) (isInfo : info < 32) :
    (UInt8.ofNat (32 * major + info)).toNat / 32 = major ∧
      (UInt8.ofNat (32 * major + info)).toNat % 32 = info := by
  have small : 32 * major + info < 2 ^ 8 := by omega
  rw [UInt8.toNat_ofNat', Nat.mod_eq_of_lt small]
  omega

/-- An argument behind the initial byte. -/
private theorem head_long {major size argument : Nat} {rest : Bytes} (isMajor : major < 8)
    (isSize : size < 4) (fits : argument < 256 ^ 2 ^ size) :
    head (UInt8.ofNat (32 * major + (24 + size)) :: Cbor.bigEndian (2 ^ size) argument ++ rest) =
      some (major, argument, rest) := by
  obtain ⟨first, second⟩ := @initial_toNat major (24 + size) isMajor (by omega)
  have length : 2 ^ size ≤ (Cbor.bigEndian (2 ^ size) argument ++ rest).length := by
    rw [List.length_append, Cbor.length_bigEndian]
    exact Nat.le_add_right _ _
  have width : 24 + size - 24 = size := Nat.add_sub_cancel_left _ _
  have taken : (Cbor.bigEndian (2 ^ size) argument ++ rest).splitAt (2 ^ size) =
      (Cbor.bigEndian (2 ^ size) argument, rest) := by
    rw [List.splitAt_eq, List.take_left' (Cbor.length_bigEndian _ _),
      List.drop_left' (Cbor.length_bigEndian _ _)]
  simp only [List.cons_append, head, first, second, width]
  rw [if_neg (by omega), if_pos ⟨by omega, length⟩, taken]
  dsimp only
  rw [foldl_bigEndian, Nat.mod_eq_of_lt fits]

theorem head_head {major argument : Nat} (isMajor : major < 8) (fits : argument < 2 ^ 64)
    (rest : Bytes) : head (Cbor.head major argument ++ rest) = some (major, argument, rest) := by
  rw [Cbor.head]
  split
  · rename_i small
    obtain ⟨first, second⟩ := initial_toNat isMajor (show argument < 32 by omega)
    simp only [List.cons_append, List.nil_append, head, first, second, if_pos small]
  · split
    · rename_i byte
      exact @head_long major 0 argument rest isMajor (by decide) (by simpa using byte)
    · split
      · rename_i short
        exact @head_long major 1 argument rest isMajor (by decide) (by simpa using short)
      · split
        · rename_i word
          exact @head_long major 2 argument rest isMajor (by decide) (by simpa using word)
        · exact @head_long major 3 argument rest isMajor (by decide) (by simpa using fits)

/-! ## Items -/

theorem content_append (make : Bytes → Value) (content rest : Bytes) :
    DefiniteCbor.content make content.length (content ++ rest) = some (make content, rest) := by
  rw [DefiniteCbor.content, if_pos (by simp), List.take_left, List.drop_left]

theorem encodes_bytes {content : Bytes} (fits : content.length < 2 ^ 64) (depth : Nat) :
    Encodes (depth + 1) (Cbor.bytes content) (.bytes content) := by
  intro rest
  rw [Cbor.bytes, List.append_assoc, item, head_head (by decide) fits]
  exact content_append _ _ _

theorem encodes_text {content : Bytes} (fits : content.length < 2 ^ 64) (depth : Nat) :
    Encodes (depth + 1) (Cbor.text content) (.text content) := by
  intro rest
  rw [Cbor.text, List.append_assoc, item, head_head (by decide) fits]
  exact content_append _ _ _

theorem readMany_encoded {depth : Nat} {encoded : List Bytes} {values : List Value}
    (encodes : List.Forall₂ (Encodes depth) encoded values) (rest : Bytes) :
    readMany (item depth) encoded.length (encoded.flatten ++ rest) = some (values, rest) := by
  induction encodes with
  | nil => rfl
  | cons first _ induction =>
      rw [List.flatten_cons, List.append_assoc, List.length_cons, readMany, first,
        Option.bind_eq_bind, Option.bind_some]
      dsimp only
      rw [induction]
      rfl

theorem encodes_array {depth : Nat} {encoded : List Bytes} {values : List Value}
    (encodes : List.Forall₂ (Encodes depth) encoded values) (fits : encoded.length < 2 ^ 64) :
    Encodes (depth + 1) (Cbor.array encoded) (.array values) := by
  intro rest
  rw [Cbor.array, List.append_assoc, item, head_head (by decide) fits]
  dsimp only
  rw [readMany_encoded encodes]
  rfl

/-- The bytes of a key and of a value are read as these. -/
def EncodesEntry (depth : Nat) (encoded : Bytes × Bytes) (entry : Value × Value) : Prop :=
  Encodes depth encoded.1 entry.1 ∧ Encodes depth encoded.2 entry.2

theorem encodes_map {depth : Nat} {encoded : List (Bytes × Bytes)}
    {entries : List (Value × Value)}
    (encodes : List.Forall₂ (EncodesEntry depth) encoded entries)
    (fits : encoded.length < 2 ^ 64) :
    Encodes (depth + 1) (Cbor.map encoded) (.map entries) := by
  intro rest
  -- Keys and values follow each other as one sequence of items.
  have items : List.Forall₂ (Encodes depth) (encoded.flatMap fun entry => [entry.1, entry.2])
      (entries.flatMap fun entry => [entry.1, entry.2]) := by
    clear fits
    induction encodes with
    | nil => exact .nil
    | cons first _ induction => exact .cons first.1 (.cons first.2 induction)
  have count : 2 * encoded.length = (encoded.flatMap fun entry => [entry.1, entry.2]).length := by
    simp [List.length_flatMap, Nat.mul_comm]
  have flattened : encoded.flatMap (fun entry => entry.1 ++ entry.2) =
      (encoded.flatMap fun entry => [entry.1, entry.2]).flatten := by
    clear encodes fits items count
    induction encoded with
    | nil => rfl
    | cons entry encoded induction =>
        rw [List.flatMap_cons, List.flatMap_cons, induction]
        simp
  have paired : pairs (entries.flatMap fun entry => [entry.1, entry.2]) = entries := by
    clear encodes items
    induction entries with
    | nil => rfl
    | cons entry entries induction =>
        simp only [List.flatMap_cons, List.cons_append, List.nil_append, pairs, induction]
  rw [Cbor.map, List.append_assoc, item, head_head (by decide) fits]
  dsimp only
  rw [count, flattened, readMany_encoded items, Option.map_some, paired]
  rfl

end DefiniteCbor

/-! ## The values of a batch -/

namespace Serialize

def optionValue (field : Field) : Option Bytes → List (Field × Value)
  | none => []
  | some content => [(field, .bytes content)]

/-- The fields in the order of the declaration, with what their bytes stand for. -/
def fieldValues (data : VerificationData) : List (Field × Value) :=
  [(.provingSystem, .text data.provingSystem.name), (.proof, .bytes data.proof)]
    ++ optionValue .pubInput data.pubInput
    ++ optionValue .verificationKey data.verificationKey
    ++ optionValue .vmProgramCode data.vmProgramCode
    ++ [(.proofGeneratorAddr, .text (address data.proofGeneratorAddr))]

def recordValue (data : VerificationData) : Value :=
  .map ((fieldValues data).map fun entry => (.text entry.1.name, entry.2))

def batchValue (data : List VerificationData) : Value :=
  .array (data.map recordValue)

/-- No byte field is longer than a length can be written. -/
structure Fits (data : VerificationData) : Prop where
  proof : data.proof.length < 2 ^ 64
  pubInput : ∀ content ∈ data.pubInput, content.length < 2 ^ 64
  verificationKey : ∀ content ∈ data.verificationKey, content.length < 2 ^ 64
  vmProgramCode : ∀ content ∈ data.vmProgramCode, content.length < 2 ^ 64

variable {data : VerificationData}

private theorem encodes_option {field : Field} {content : Option Bytes}
    (fits : ∀ bytes ∈ content, bytes.length < 2 ^ 64) (depth : Nat) :
    List.Forall₂ (fun (encoded : Field × Bytes) (value : Field × Value) =>
        encoded.1 = value.1 ∧ DefiniteCbor.Encodes (depth + 1) encoded.2 value.2)
      (optionBytes field content) (optionValue field content) := by
  cases content with
  | none => exact .nil
  | some bytes => exact .cons ⟨rfl, DefiniteCbor.encodes_bytes (fits bytes rfl) depth⟩ .nil

theorem encodes_fields (fits : Fits data) (depth : Nat) :
    List.Forall₂ (fun (encoded : Field × Bytes) (value : Field × Value) =>
        encoded.1 = value.1 ∧ DefiniteCbor.Encodes (depth + 1) encoded.2 value.2)
      (fields data) (fieldValues data) := by
  have variantShort : data.provingSystem.name.length < 2 ^ 64 := by
    cases data.provingSystem <;> decide
  have addressShort : (address data.proofGeneratorAddr).length < 2 ^ 64 := by
    rw [length_address]
    decide
  have first : List.Forall₂ (fun (encoded : Field × Bytes) (value : Field × Value) =>
        encoded.1 = value.1 ∧ DefiniteCbor.Encodes (depth + 1) encoded.2 value.2)
      [(.provingSystem, Cbor.text data.provingSystem.name), (.proof, Cbor.bytes data.proof)]
      [(.provingSystem, .text data.provingSystem.name), (.proof, .bytes data.proof)] :=
    .cons ⟨rfl, DefiniteCbor.encodes_text variantShort depth⟩
      (.cons ⟨rfl, DefiniteCbor.encodes_bytes fits.proof depth⟩ .nil)
  have last : List.Forall₂ (fun (encoded : Field × Bytes) (value : Field × Value) =>
        encoded.1 = value.1 ∧ DefiniteCbor.Encodes (depth + 1) encoded.2 value.2)
      [(.proofGeneratorAddr, Cbor.text (address data.proofGeneratorAddr))]
      [(.proofGeneratorAddr, .text (address data.proofGeneratorAddr))] :=
    .cons ⟨rfl, DefiniteCbor.encodes_text addressShort depth⟩ .nil
  exact List.rel_append (List.rel_append (List.rel_append (List.rel_append first
    (encodes_option fits.pubInput depth)) (encodes_option fits.verificationKey depth))
    (encodes_option fits.vmProgramCode depth)) last

theorem encodes_verificationData (fits : Fits data) (depth : Nat) :
    DefiniteCbor.Encodes (depth + 2) (verificationData data) (recordValue data) := by
  apply DefiniteCbor.encodes_map
  · rw [List.forall₂_map_left_iff, List.forall₂_map_right_iff]
    apply (encodes_fields fits depth).imp
    intro encoded value both
    obtain ⟨same, encodes⟩ := both
    refine ⟨?_, encodes⟩
    rw [same]
    apply DefiniteCbor.encodes_text
    exact Nat.lt_trans (length_name_lt value.1) (by decide)
  · rw [List.length_map]
    exact Nat.lt_trans (length_fields_lt data) (by decide)

/-- The bytes of an item are a part of the document. -/
theorem length_le_of_mem {encoded : Bytes} {items : List Bytes} (member : encoded ∈ items) :
    encoded.length ≤ items.flatten.length := by
  rw [List.length_flatten]
  exact List.le_sum_of_mem (List.mem_map_of_mem member)

theorem length_le_of_field {entry : Field × Bytes} (member : entry ∈ fields data) :
    entry.2.length ≤ (verificationData data).length := by
  have part := List.le_sum_of_mem (List.mem_map_of_mem (f := entrySize) member)
  rw [length_verificationData]
  simp only [entrySize] at part ⊢
  omega

theorem fits_of_length (short : (verificationData data).length < 2 ^ 64) : Fits data := by
  have content : ∀ field bytes, (field, Cbor.bytes bytes) ∈ fields data →
      bytes.length < 2 ^ 64 := by
    intro field bytes member
    have part := length_le_of_field member
    rw [Cbor.bytes, List.length_append] at part
    omega
  constructor
  · exact content .proof _ (by simp [fields])
  · intro bytes isSome
    exact content .pubInput _ (by simp [fields, optionBytes, Option.mem_def.mp isSome])
  · intro bytes isSome
    exact content .verificationKey _ (by simp [fields, optionBytes, Option.mem_def.mp isSome])
  · intro bytes isSome
    exact content .vmProgramCode _ (by simp [fields, optionBytes, Option.mem_def.mp isSome])

end Serialize

/-- A batch that is no longer than a length can be written is read back as its
values, whatever follows it. -/
theorem encodes_cborSerialize {data : List VerificationData}
    (short : (cborSerialize data).length < 2 ^ 64) (depth : Nat) :
    DefiniteCbor.Encodes (depth + 3) (cborSerialize data) (Serialize.batchValue data) := by
  have parts : (data.map Serialize.verificationData).flatten.length < 2 ^ 64 := by
    rw [cborSerialize, Cbor.array, List.length_append] at short
    omega
  apply DefiniteCbor.encodes_array
  · rw [List.forall₂_map_left_iff, List.forall₂_map_right_iff, List.forall₂_same]
    intro record member
    have part := Serialize.length_le_of_mem (List.mem_map_of_mem (f := Serialize.verificationData) member)
    exact Serialize.encodes_verificationData
      (Serialize.fits_of_length (Nat.lt_of_le_of_lt part parts)) depth
  · rw [List.length_map]
    apply Nat.lt_of_le_of_lt _ parts
    rw [List.length_flatten, List.map_map]
    have positive : ∀ length ∈ data.map (List.length ∘ Serialize.verificationData), 1 ≤ length := by
      intro length member
      obtain ⟨record, -, rfl⟩ := List.mem_map.mp member
      rw [Function.comp_apply, Serialize.length_verificationData]
      omega
    have bound := List.card_nsmul_le_sum _ 1 positive
    simpa using bound

/-! ## The data of a batch -/

/-- What is documented of the decoders, as far as batches need it: documents of
definite lengths are read as they are nested, and addresses as they are
written. -/
structure Formats.Documented (formats : Formats) : Prop where
  cborItem : ∀ depth ≤ 32, ∀ bytes value rest,
    DefiniteCbor.item depth bytes = some (value, rest) →
      formats.cborItem bytes = some (value, rest)
  ciborium : ∀ data, formats.ciborium (Serialize.batchValue data) = true
  address : ∀ address, formats.address (Serialize.address address) = some address

namespace Serialize

variable {data : VerificationData}

/-- The value written for a field. -/
def fieldValue (data : VerificationData) : Field → Option Value
  | .provingSystem => some (.text data.provingSystem.name)
  | .proof => some (.bytes data.proof)
  | .pubInput => data.pubInput.map .bytes
  | .verificationKey => data.verificationKey.map .bytes
  | .vmProgramCode => data.vmProgramCode.map .bytes
  | .proofGeneratorAddr => some (.text (address data.proofGeneratorAddr))

theorem find?_fieldValues (data : VerificationData) (field : Field) :
    ((fieldValues data).find? fun entry => entry.1 = field).map Prod.snd =
      fieldValue data field := by
  obtain ⟨provingSystem, proof, pubInput, verificationKey, vmProgramCode, generator⟩ := data
  cases field <;> cases pubInput <;> cases verificationKey <;> cases vmProgramCode <;> rfl

theorem distinct_fieldValues (data : VerificationData) :
    ((fieldValues data).map Prod.fst).Nodup := by
  obtain ⟨provingSystem, proof, pubInput, verificationKey, vmProgramCode, generator⟩ := data
  cases pubInput <;> cases verificationKey <;> cases vmProgramCode <;>
    simp [fieldValues, optionValue]

/-- A decoder that takes texts for keys finds the names of the fields. -/
theorem mapM_keys {key : Value → Option Bytes}
    (texts : ∀ content, key (.text content) = some content) (data : VerificationData) :
    ((fieldValues data).map fun entry => (Value.text entry.1.name, entry.2)).mapM
        (fun entry => (key entry.1).map fun name => (name, entry.2)) =
      some ((fieldValues data).map fun entry => (entry.1.name, entry.2)) := by
  rw [FieldMatching.mapM_eq_some_iff, List.forall₂_map_left_iff, List.forall₂_map_right_iff,
    List.forall₂_same]
  intro entry _
  rw [texts]
  rfl

end Serialize

namespace Deserialize

variable {formats : Formats} {data : VerificationData}

theorem record_recordValue (data : VerificationData) :
    ∃ found, record .cbor (Serialize.recordValue data) = some found ∧
      ∀ field, found field = Serialize.fieldValue data field := by
  obtain ⟨found, collected⟩ := FieldMatching.exists_collectExact Field.name_injective
    (fun entry _ => Field.mem_all entry.1) (Serialize.distinct_fieldValues data)
  refine ⟨found, ?_, ?_⟩
  · rw [record, Serialize.recordValue]
    dsimp only [Value.untag]
    rw [Serialize.mapM_keys (fun _ => rfl)]
    exact collected
  · intro field
    have exact : ∀ other : Field, decide (other.name = field.name) = decide (other = field) :=
      fun other => decide_eq_decide.mpr Field.name_injective.eq_iff
    rw [FieldMatching.collectExact_apply Field.name_injective (Field.mem_all field) collected]
    exact (FieldMatching.valueWhere_named exact).trans (Serialize.find?_fieldValues data field)

theorem ofName_name (provingSystem : ProvingSystemId) :
    ProvingSystemId.ofName provingSystem.name = some provingSystem := by
  cases provingSystem <;> decide

theorem optionField_bytes (content : Option Bytes) :
    optionField .cbor (content.map .bytes) = some content := by
  cases content <;> rfl

theorem verificationData_recordValue (documented : formats.Documented)
    (data : VerificationData) :
    verificationData formats .cbor (Serialize.recordValue data) = some data := by
  obtain ⟨found, isRecord, values⟩ := record_recordValue data
  have isVariant : (found .provingSystem).bind (variant .cbor) = some data.provingSystem := by
    rw [values]
    exact ofName_name _
  have isAddress : (found .proofGeneratorAddr).bind (address formats) =
      some data.proofGeneratorAddr := by
    rw [values]
    exact documented.address _
  have isProof : (found .proof).bind (byteBuf .cbor) = some data.proof := by
    rw [values]
    rfl
  simp only [verificationData, isRecord, isVariant, isAddress, isProof, Option.bind_eq_bind,
    Option.bind_some]
  simp only [values, Serialize.fieldValue, optionField_bytes, Option.bind_some]
  rfl

/-- The Rust decoders read a batch back as it was written. -/
theorem fromReader_cborSerialize (documented : formats.Documented)
    {data : List VerificationData} (short : (cborSerialize data).length < 2 ^ 64)
    (rest : Bytes) : fromReader formats (cborSerialize data ++ rest) = some data := by
  have item := documented.cborItem 3 (by decide) _ _ _ (encodes_cborSerialize short 0 rest)
  rw [fromReader, item]
  dsimp only
  rw [if_pos (documented.ciborium data), Serialize.batchValue, batch]
  dsimp only [Value.untag]
  rw [FieldMatching.mapM_eq_some_iff, List.forall₂_map_left_iff, List.forall₂_same]
  intro record _
  exact verificationData_recordValue documented record

end Deserialize

/-! ## Decoders as documented -/

namespace DefiniteCbor

theorem readMany_le {read other : Bytes → Option (Value × Bytes)}
    (agrees : ∀ bytes result, read bytes = some result → other bytes = some result)
    {count : Nat} {bytes : Bytes} {result : List Value × Bytes}
    (ok : readMany read count bytes = some result) : readMany other count bytes = some result := by
  induction count generalizing bytes result with
  | zero => exact ok
  | succ count induction =>
      simp only [readMany, Option.bind_eq_bind, Option.bind_eq_some_iff] at ok ⊢
      obtain ⟨first, isFirst, later, isLater, same⟩ := ok
      exact ⟨first, agrees _ _ isFirst, later, induction isLater, same⟩

/-- What is read within a depth is read within a larger one. -/
theorem item_succ {depth : Nat} {bytes : Bytes} {result : Value × Bytes}
    (ok : item depth bytes = some result) : item (depth + 1) bytes = some result := by
  induction depth generalizing bytes result with
  | zero => cases ok
  | succ depth induction =>
      have agrees : ∀ bytes result, item depth bytes = some result →
          item (depth + 1) bytes = some result := fun _ _ => induction
      rw [item] at ok ⊢
      split at ok
      · cases ok
      · dsimp only at ok ⊢
        split at ok
        · exact ok
        · exact ok
        · exact ok
        · exact ok
        · obtain ⟨values, many, same⟩ := Option.map_eq_some_iff.mp ok
          exact Option.map_eq_some_iff.mpr ⟨values, readMany_le agrees many, same⟩
        · obtain ⟨values, many, same⟩ := Option.map_eq_some_iff.mp ok
          exact Option.map_eq_some_iff.mpr ⟨values, readMany_le agrees many, same⟩
        · obtain ⟨content, isContent, same⟩ := Option.map_eq_some_iff.mp ok
          exact Option.map_eq_some_iff.mpr ⟨content, agrees _ _ isContent, same⟩
        · exact ok

theorem item_le {depth larger : Nat} (atMost : depth ≤ larger) {bytes : Bytes}
    {result : Value × Bytes} (ok : item depth bytes = some result) :
    item larger bytes = some result := by
  induction atMost with
  | refl => exact ok
  | step _ induction => exact item_succ induction

theorem bigEndian_eq_map (width number : Nat) :
    Cbor.bigEndian width number =
      (List.range width).map fun index => UInt8.ofNat (number / 256 ^ (width - 1 - index)) := by
  induction width generalizing number with
  | zero => rfl
  | succ width induction =>
      rw [Cbor.bigEndian, induction, List.range_succ, List.map_append, List.map_singleton]
      have last : number / 256 ^ (width + 1 - 1 - width) = number := by
        rw [Nat.add_sub_cancel, Nat.sub_self, Nat.pow_zero, Nat.div_one]
      rw [last]
      congr 1
      apply List.map_congr_left
      intro index member
      have below := List.mem_range.mp member
      rw [Nat.div_div_eq_div_mul, ← Nat.pow_succ']
      congr 3
      omega

theorem toBytes_eq (address : Address) :
    address.toBytes.toList = Cbor.bigEndian 20 address.toNat := by
  rw [bigEndian_eq_map]
  apply List.ext_getElem
  · simp
  · intro index left right
    simp [Address.toBytes]

theorem hexDigit_hexCharacter {digit : Nat} (isDigit : digit < 16) :
    hexDigit (Serialize.hexCharacter digit) = some digit := by
  have all : ∀ digit < 16, hexDigit (Serialize.hexCharacter digit) = some digit := by decide
  exact all digit isDigit

theorem mapM_hexDigit (bytes : Bytes) :
    (bytes.flatMap fun byte => [Serialize.hexCharacter (byte.toNat / 16),
        Serialize.hexCharacter (byte.toNat % 16)]).mapM hexDigit =
      some (bytes.flatMap fun byte => [byte.toNat / 16, byte.toNat % 16]) := by
  rw [FieldMatching.mapM_eq_some_iff]
  induction bytes with
  | nil => exact .nil
  | cons byte bytes induction =>
      have bound := byte.toNat_lt
      exact .cons (hexDigit_hexCharacter (by omega))
        (.cons (hexDigit_hexCharacter (by omega)) induction)

theorem foldl_digits (bytes : Bytes) (start : Nat) :
    (bytes.flatMap fun byte => [byte.toNat / 16, byte.toNat % 16]).foldl
        (fun sum digit => 16 * sum + digit) start =
      bytes.foldl (fun sum byte => 256 * sum + byte.toNat) start := by
  induction bytes generalizing start with
  | nil => rfl
  | cons byte bytes induction =>
      have digits : 16 * (16 * start + byte.toNat / 16) + byte.toNat % 16 =
          256 * start + byte.toNat := by omega
      rw [List.flatMap_cons, List.foldl_append, List.foldl_cons, List.foldl_cons, List.foldl_nil,
        digits, induction, List.foldl_cons]

theorem address_address (written : Address) :
    address (Serialize.address written) = some written := by
  have start : ascii "0x" = [48, 120] := by decide
  have length := Serialize.length_address written
  rw [Serialize.address, start, List.cons_append, List.singleton_append] at length ⊢
  have digits := Nat.succ.inj (Nat.succ.inj length)
  have bound : written.toNat < 256 ^ 20 :=
    Nat.lt_of_lt_of_eq written.isLt (Nat.pow_mul (a := 2) (m := 8) (n := 20))
  rw [address, if_pos digits, mapM_hexDigit, Option.map_some, foldl_digits, toBytes_eq,
    foldl_bigEndian, Nat.mod_eq_of_lt bound, BitVec.ofNat_toNat, BitVec.setWidth_eq]

theorem formats_documented : formats.Documented := by
  constructor
  · intro depth atMost bytes value rest
    exact item_le atMost
  · intro data
    rfl
  · have reads : formats.address = address := rfl
    rw [reads]
    exact address_address

end DefiniteCbor

end AlignedLayer
