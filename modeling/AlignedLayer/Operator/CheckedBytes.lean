import AlignedLayer.Library.Keccak256
import AlignedLayer.Operator.Download

/-!
# Checked bytes and verified bytes

The Merkle root is checked for the batch Rust decodes, and the proofs are
verified of the batch Go decodes.  Go keeps the first value whose key is the
name of a field up to case, so the two batches differ where another spelling
of a name comes first.
-/

namespace AlignedLayer.Operator

/-- The keys of a record with their values.  Without keys the names of the
fields stand in their order. -/
def keyed (record : Value) : List (Bytes × Value) :=
  match record.untag with
  | .map entries =>
      entries.filterMap fun entry => (Unmarshal.key entry.1).map fun name => (name, entry.2)
  | .array items => (Unmarshal.fields.map Field.name).zip items
  | _ => []

/-- The first key that is the field's name up to case. -/
def firstKey (record : Value) (field : Field) : Option (Bytes × Value) :=
  (keyed record).find? fun entry =>
    decide (Unmarshal.lower entry.1 = Unmarshal.lower field.name)

/-- The value under the field's name. -/
def named (record : Value) (field : Field) : Option Value :=
  FieldMatching.valueWhere (fun key => decide (key = field.name)) (keyed record)

def byteFields : List Field :=
  [.proof, .pubInput, .verificationKey, .vmProgramCode]

section Conditions

variable (formats : Formats) (format : Format)

/-- The Go decoder does not fail on a record: the keys are text, and the first
value for a field is of its kind. -/
structure Readable (record : Value) : Prop where
  keys : ∀ entries, record.untag = .map entries →
    ∀ entry ∈ entries, (Unmarshal.key entry.1).isSome
  provingSystem : ∀ entry ∈ firstKey record .provingSystem,
    (Unmarshal.provingSystem format entry.2).isSome
  bytes : ∀ field ∈ byteFields, ∀ entry ∈ firstKey record field,
    (Unmarshal.byteSlice formats format entry.2).isSome

/-- A JSON string is base64 to one decoder and the bytes themselves to the other. -/
def NoJsonString (value : Value) : Prop :=
  format = .json → ∀ content, value.untag = .text content → content = []

/-- The first key for the proving system is its name, or the values under both
stand for the same number. -/
def SettledProvingSystem (record : Value) : Prop :=
  ∀ entry ∈ firstKey record .provingSystem, entry.1 ≠ Field.provingSystem.name →
    Unmarshal.provingSystem format entry.2 =
      ((named record .provingSystem).bind (Deserialize.variant format)).map
        fun provingSystem => provingSystem.toByte.toUInt16

/-- The first key for a byte field is its name, or the values under both stand
for the same bytes; an absent field is empty. -/
def SettledBytes (record : Value) (field : Field) : Prop :=
  ∀ entry ∈ firstKey record field,
    if entry.1 = field.name then
      NoJsonString format entry.2
    else
      Unmarshal.byteSlice formats format entry.2 =
        (Deserialize.optionField format (named record field)).map fun content => content.getD []

structure Settled (record : Value) : Prop where
  provingSystem : SettledProvingSystem format record
  bytes : ∀ field ∈ byteFields, SettledBytes formats format record field

def records (value : Value) : List Value :=
  match value.untag with
  | .array items => items
  | _ => []

/-- If the Go decoder fails on no record, all are settled. -/
def ReadAlike (value : Value) : Prop :=
  (∀ record ∈ records value, Readable formats format record) →
    ∀ record ∈ records value, Settled formats format record

/-- The condition on the bytes.  Go may also refuse the document as a whole. -/
structure BytesReadAlike (batchBytes : Bytes) : Prop where
  cbor : (Deserialize.fromReader formats batchBytes).isSome →
    ∀ item, formats.cborItem batchBytes = some (item, []) → formats.fxamacker item = true →
      ReadAlike formats .cbor item
  json : Deserialize.fromReader formats batchBytes = none →
    ∀ value, formats.jsonText batchBytes = some value → formats.ugorji value = true →
      ReadAlike formats .json value

end Conditions

variable {formats : Formats} {format : Format}

/-! ## One field -/

theorem number_of_untag_null : ∀ value : Value, value.untag = .null → value.number = none
  | .null, _ => rfl
  | .unsigned _, isNull => by cases isNull
  | .bytes _, _ => rfl
  | .text _, _ => rfl
  | .array _, _ => rfl
  | .map _, _ => rfl
  | .other, _ => rfl
  | .tag tagNumber content, isNull => by
      have inner := number_of_untag_null content isNull
      unfold Value.number
      split
      · contradiction
      · simp_all [Value.untag]
      · rfl
      · rfl
      · simp_all
      · rfl

theorem byte_of_byte {value : Value} {byte : UInt8} (read : value.byte = some byte) :
    Unmarshal.byte format value = some byte := by
  unfold Unmarshal.byte
  split
  case h_1 isNull =>
    rw [Value.byte, number_of_untag_null value isNull] at read
    cases read
  case h_2 => exact read

theorem byteBuf_cases {value : Value} {content : Bytes}
    (checked : Deserialize.byteBuf format value = some content) :
    value.untag = .bytes content ∨
      (∃ items, value.untag = .array items ∧ items.mapM Value.byte = some content) ∨
      (format = .json ∧ value.untag = .text content) := by
  unfold Deserialize.byteBuf at checked
  split at checked
  case h_1 bytes isBytes =>
    cases checked
    exact .inl isBytes
  case h_2 items isArray => exact .inr (.inl ⟨items, isArray, checked⟩)
  case h_3 text isText =>
    split at checked
    case isTrue isJson =>
      cases checked
      exact .inr (.inr ⟨isJson, isText⟩)
    case isFalse => cases checked
  case h_4 => cases checked

/-- A byte field read under its own name. -/
theorem byteSlice_eq_iff {value : Value} {content : Option Bytes} {decoded : Bytes}
    (checked : Deserialize.optionBytes format value = some content)
    (read : Unmarshal.byteSlice formats format value = some decoded) :
    decoded = content.getD [] ↔ NoJsonString format value := by
  unfold Deserialize.optionBytes at checked
  split at checked
  case h_1 =>
    cases checked
    cases read
    constructor
    · intro _ _ text isText
      cases isText
    · intro _
      rfl
  case h_2 =>
    rw [Option.map_eq_some_iff] at checked
    obtain ⟨bytes, checked, rfl⟩ := checked
    rw [Option.getD_some]
    unfold Unmarshal.byteSlice at read
    rcases byteBuf_cases checked with isBytes | ⟨items, isArray, bytesRead⟩ | ⟨isJson, isText⟩
    · rw [isBytes] at read
      cases read
      constructor
      · intro _ _ text isText
        rw [isBytes] at isText
        cases isText
      · intro _
        rfl
    · rw [isArray] at read
      dsimp only at read
      rw [FieldMatching.mapM_of_le (fun _ _ => byte_of_byte) bytesRead] at read
      cases read
      constructor
      · intro _ _ text isText
        rw [isArray] at isText
        cases isText
      · intro _
        rfl
    · rw [isText] at read
      dsimp only at read
      rw [if_pos isJson] at read
      constructor
      · intro same _ text textIs
        rw [isText, Value.text.injEq] at textIs
        subst textIs same
        rcases formats.base64_shorter _ _ read with shorter | ⟨empty, -⟩
        · exact absurd shorter (Nat.lt_irrefl _)
        · exact empty
      · intro noString
        have empty := noString isJson bytes isText
        subst empty
        rcases formats.base64_shorter _ _ read with shorter | ⟨-, nothing⟩
        · exact absurd shorter (Nat.not_lt_zero _)
        · exact nothing

/-- Both decoders read a proving system's name alike. -/
theorem provingSystem_of_variant {value : Value} {provingSystem : ProvingSystemId}
    {decoded : UInt16} (checked : Deserialize.variant format value = some provingSystem)
    (read : Unmarshal.provingSystem format value = some decoded) :
    decoded = provingSystem.toByte.toUInt16 := by
  unfold Deserialize.variant at checked
  split at checked
  case h_1 name isText =>
    have number := provingSystemIdFromString_name provingSystem
    rw [← ProvingSystemId.name_of_ofName checked] at number
    have string : unmarshalString value = some name := by rw [unmarshalString, isText]
    unfold Unmarshal.provingSystem at read
    split at read
    · rw [unmarshalCBOR, string] at read
      dsimp only at read
      rw [number] at read
      cases read
      rfl
    · cases isText
    · rw [unmarshalJSON, string] at read
      dsimp only at read
      rw [number] at read
      cases read
      rfl
  case h_2 name isMap =>
    have noString : unmarshalString value = none := by rw [unmarshalString, isMap]
    unfold Unmarshal.provingSystem at read
    split at read
    · rw [unmarshalCBOR, noString] at read
      cases read
    · cases isMap
    · rw [unmarshalJSON, noString] at read
      cases read
  case h_3 => cases checked

/-! ## One record -/

theorem entry_of_entry {entry : Value × Value} {result : Bytes × Value}
    (read : ((Unmarshal.key entry.1).map fun name => (name, entry.2)) = some result) :
    ((Deserialize.key format entry.1).map fun name => (name, entry.2)) = some result := by
  rw [Option.map_eq_some_iff] at read ⊢
  obtain ⟨name, key, same⟩ := read
  refine ⟨name, ?_, same⟩
  unfold Unmarshal.key at key
  split at key
  case h_1 content isText =>
    cases key
    rw [isText]
    rfl
  case h_2 => cases key

/-- In a record without keys both decoders go by the position. -/
theorem found_array_eq {items : List Value} (sized : items.length = Field.all.length)
    {field : Field} (member : field ∈ Unmarshal.fields) :
    let keys := (Unmarshal.fields.map Field.name).zip items
    items[field.position]? = FieldMatching.valueWhere (fun key => decide (key = field.name)) keys ∧
      items[field.position]? = (keys.find? fun entry =>
        decide (Unmarshal.lower entry.1 = Unmarshal.lower field.name)).map Prod.snd := by
  match items, sized with
  | [_, _, _, _, _, _], _ =>
      cases field with
      | proofGeneratorAddr => exact absurd member (by decide)
      | _ => exact ⟨rfl, rfl⟩

/-- Where both decoders find the values of a field. -/
theorem found_eq {record : Value} {checked decoded : FieldMatching.Found Field Value}
    (checkedRecord : Deserialize.record format record = some checked)
    (decodedRecord : Unmarshal.record format record = some decoded) {field : Field}
    (member : field ∈ Unmarshal.fields) :
    checked field = named record field ∧
      decoded field = (firstKey record field).map Prod.snd := by
  unfold Deserialize.record at checkedRecord
  unfold Unmarshal.record at decodedRecord
  split at checkedRecord
  case h_1 entries isMap =>
    rw [isMap] at decodedRecord
    dsimp only at decodedRecord
    rw [Option.bind_eq_bind, Option.bind_eq_some_iff] at checkedRecord decodedRecord
    obtain ⟨checkedEntries, checkedRead, collected⟩ := checkedRecord
    obtain ⟨decodedEntries, decodedRead, same⟩ := decodedRecord
    cases same
    have keys : keyed record = decodedEntries := by
      rw [keyed, isMap]
      exact FieldMatching.filterMap_of_mapM decodedRead
    rw [FieldMatching.mapM_of_le (fun _ _ => entry_of_entry) decodedRead] at checkedRead
    cases checkedRead
    constructor
    · rw [named, keys]
      exact FieldMatching.collectExact_apply Field.name_injective (Field.mem_all field) collected
    · rw [firstKey, keys, FieldMatching.collectFirst_apply lower_name_injective member]
      rfl
  case h_2 items isArray =>
    rw [isArray] at decodedRecord
    dsimp only at decodedRecord
    split at checkedRecord
    case isFalse => cases checkedRecord
    case isTrue both =>
      obtain ⟨isJson, sized⟩ := both
      rw [if_pos isJson] at decodedRecord
      cases checkedRecord
      cases decodedRecord
      dsimp only
      rw [if_pos member, named, firstKey, keyed, isArray]
      exact found_array_eq sized member
  case h_3 => cases checkedRecord

/-- What Rust reads of a record, field by field. -/
theorem checked_fields {record : Value} {data : AlignedLayer.VerificationData}
    (checked : Deserialize.verificationData formats format record = some data) :
    ∃ found, Deserialize.record format record = some found ∧
      (found .provingSystem).bind (Deserialize.variant format) = some data.provingSystem ∧
      (found .proof).bind (Deserialize.byteBuf format) = some data.proof ∧
      Deserialize.optionField format (found .pubInput) = some data.pubInput ∧
      Deserialize.optionField format (found .verificationKey) = some data.verificationKey ∧
      Deserialize.optionField format (found .vmProgramCode) = some data.vmProgramCode := by
  simp only [Deserialize.verificationData, Option.bind_eq_bind, Option.pure_def,
    Option.bind_eq_some_iff, Option.some.injEq] at checked ⊢
  obtain ⟨found, isRecord, _, system, _, proof, _, input, _, key, _, code, _, _, rfl⟩ := checked
  exact ⟨found, isRecord, system, proof, input, key, code⟩

theorem decoded_fields {record : Value} {data : VerificationData} :
    Unmarshal.verificationData formats format record = some data ↔
      ∃ found, Unmarshal.record format record = some found ∧
        Unmarshal.field 0 (Unmarshal.provingSystem format) (found .provingSystem) =
          some data.provingSystemId ∧
        Unmarshal.field [] (Unmarshal.byteSlice formats format) (found .proof) =
          some data.proof ∧
        Unmarshal.field [] (Unmarshal.byteSlice formats format) (found .pubInput) =
          some data.pubInput ∧
        Unmarshal.field [] (Unmarshal.byteSlice formats format) (found .verificationKey) =
          some data.verificationKey ∧
        Unmarshal.field [] (Unmarshal.byteSlice formats format) (found .vmProgramCode) =
          some data.vmProgramCode := by
  simp only [Unmarshal.verificationData, Option.bind_eq_bind, Option.pure_def,
    Option.bind_eq_some_iff, Option.some.injEq]
  constructor
  · rintro ⟨found, isRecord, _, system, _, proof, _, input, _, key, _, code, rfl⟩
    exact ⟨found, isRecord, system, proof, input, key, code⟩
  · rintro ⟨found, isRecord, system, proof, input, key, code⟩
    exact ⟨found, isRecord, _, system, _, proof, _, input, _, key, _, code, rfl⟩

/-- A required byte field is read as one that may be absent. -/
theorem optionField_of_required {value : Option Value} {content : Bytes}
    (required : value.bind (Deserialize.byteBuf format) = some content) :
    Deserialize.optionField format value = some (some content) := by
  rw [Option.bind_eq_some_iff] at required
  obtain ⟨value, rfl, read⟩ := required
  unfold Deserialize.optionField Deserialize.optionBytes
  dsimp only
  split
  case h_1 => cases read
  case h_2 =>
    rw [read]
    rfl

/-- The exact name is one of the spellings that agree up to case. -/
theorem lower_of_exact (field : Field) (key : Bytes) (exact : decide (key = field.name) = true) :
    decide (Unmarshal.lower key = Unmarshal.lower field.name) = true := by
  rw [of_decide_eq_true exact]
  exact decide_eq_true rfl

theorem named_of_firstKey_eq_none {record : Value} {field : Field}
    (absent : firstKey record field = none) : named record field = none :=
  FieldMatching.valueWhere_stricter_eq_none (lower_of_exact field) absent

theorem named_of_firstKey {record : Value} {field : Field} {value : Value}
    (first : firstKey record field = some (field.name, value)) :
    named record field = some value :=
  FieldMatching.find?_stricter (lower_of_exact field) first (decide_eq_true rfl)

theorem bytes_eq_iff {record : Value} {field : Field} {content : Option Bytes} {decoded : Bytes}
    (checked : Deserialize.optionField format (named record field) = some content)
    (read : Unmarshal.field [] (Unmarshal.byteSlice formats format)
      ((firstKey record field).map Prod.snd) = some decoded) :
    decoded = content.getD [] ↔ SettledBytes formats format record field := by
  unfold SettledBytes
  cases first : firstKey record field with
  | none =>
      rw [first] at read
      rw [named_of_firstKey_eq_none first] at checked
      cases checked
      cases read
      simp
  | some entry =>
      obtain ⟨key, value⟩ := entry
      rw [first] at read
      change Unmarshal.byteSlice formats format value = some decoded at read
      simp only [Option.mem_some_iff, forall_eq']
      by_cases exact : key = field.name
      · subst exact
        rw [named_of_firstKey first] at checked
        rw [if_pos rfl]
        exact byteSlice_eq_iff checked read
      · rw [if_neg exact, checked, read, Option.map_some, Option.some.injEq]

theorem provingSystem_eq_iff {record : Value} {provingSystem : ProvingSystemId}
    {decoded : UInt16}
    (checked : (named record .provingSystem).bind (Deserialize.variant format) =
      some provingSystem)
    (read : Unmarshal.field 0 (Unmarshal.provingSystem format)
      ((firstKey record .provingSystem).map Prod.snd) = some decoded) :
    decoded = provingSystem.toByte.toUInt16 ↔ SettledProvingSystem format record := by
  unfold SettledProvingSystem
  cases first : firstKey record .provingSystem with
  | none =>
      rw [named_of_firstKey_eq_none first] at checked
      cases checked
  | some entry =>
      obtain ⟨key, value⟩ := entry
      rw [first] at read
      change Unmarshal.provingSystem format value = some decoded at read
      simp only [Option.mem_some_iff, forall_eq']
      by_cases exact : key = Field.provingSystem.name
      · subst exact
        rw [named_of_firstKey first] at checked
        constructor
        · intro _ other
          exact absurd rfl other
        · intro _
          exact provingSystem_of_variant checked read
      · rw [checked, read, Option.map_some, Option.some.injEq]
        constructor
        · intro same _
          exact same
        · intro same
          exact same exact

/-- Both decoders read the same from a record if and only if it is settled. -/
theorem verificationData_eq_iff {record : Value} {data : AlignedLayer.VerificationData}
    {decoded : VerificationData}
    (checked : Deserialize.verificationData formats format record = some data)
    (read : Unmarshal.verificationData formats format record = some decoded) :
    decoded = .ofSdk data ↔ Settled formats format record := by
  obtain ⟨found, isRecord, system, proof, input, key, code⟩ := checked_fields checked
  obtain ⟨values, decodedRecord, system', proof', input', key', code'⟩ := decoded_fields.mp read
  have places : ∀ field ∈ Unmarshal.fields, found field = named record field ∧
      values field = (firstKey record field).map Prod.snd :=
    fun field member => found_eq isRecord decodedRecord member
  have proof := optionField_of_required proof
  rw [(places _ (by decide)).1] at system proof input key code
  rw [(places _ (by decide)).2] at system' proof' input' key' code'
  have fields : decoded = .ofSdk data ↔
      decoded.provingSystemId = data.provingSystem.toByte.toUInt16 ∧
        decoded.proof = (some data.proof).getD [] ∧
        decoded.pubInput = data.pubInput.getD [] ∧
        decoded.verificationKey = data.verificationKey.getD [] ∧
        decoded.vmProgramCode = data.vmProgramCode.getD [] := by
    cases decoded
    simp [VerificationData.ofSdk]
  rw [fields, provingSystem_eq_iff system system', bytes_eq_iff proof proof',
    bytes_eq_iff input input', bytes_eq_iff key key', bytes_eq_iff code code']
  constructor
  · intro settled
    constructor
    · exact settled.1
    · intro field member
      simp only [byteFields, List.mem_cons, List.not_mem_nil, or_false] at member
      rcases member with rfl | rfl | rfl | rfl
      · exact settled.2.1
      · exact settled.2.2.1
      · exact settled.2.2.2.1
      · exact settled.2.2.2.2
  · intro settled
    exact ⟨settled.provingSystem, settled.bytes _ (by decide), settled.bytes _ (by decide),
      settled.bytes _ (by decide), settled.bytes _ (by decide)⟩

theorem record_isSome_iff {record : Value} {found : FieldMatching.Found Field Value}
    (checked : Deserialize.record format record = some found) :
    (Unmarshal.record format record).isSome ↔ ∀ entries, record.untag = .map entries →
      ∀ entry ∈ entries, (Unmarshal.key entry.1).isSome := by
  unfold Deserialize.record at checked
  unfold Unmarshal.record
  split at checked
  case h_1 entries isMap =>
    simp only [isMap, Value.map.injEq, forall_eq']
    have keys : (entries.mapM fun entry => (Unmarshal.key entry.1).map fun name =>
        (name, entry.2)).isSome ↔ ∀ entry ∈ entries, (Unmarshal.key entry.1).isSome := by
      simp [FieldMatching.mapM_isSome_iff]
    rw [← keys]
    cases (entries.mapM fun entry => (Unmarshal.key entry.1).map fun name => (name, entry.2)) with
    | none => simp
    | some named => simp
  case h_2 items isArray =>
    split at checked
    case isFalse => cases checked
    case isTrue both => simp [isArray, both.1]
  case h_3 => cases checked

theorem field_isSome_iff {Result : Type} {zero : Result} {read : Value → Option Result}
    {first : Option (Bytes × Value)} :
    (Unmarshal.field zero read (first.map Prod.snd)).isSome ↔
      ∀ entry ∈ first, (read entry.2).isSome := by
  cases first with
  | none => simp [Unmarshal.field]
  | some entry => simp [Unmarshal.field]

theorem verificationData_isSome_iff {record : Value} {data : AlignedLayer.VerificationData}
    (checked : Deserialize.verificationData formats format record = some data) :
    (Unmarshal.verificationData formats format record).isSome ↔
      Readable formats format record := by
  obtain ⟨found, isRecord, -⟩ := checked_fields checked
  have places : ∀ values, Unmarshal.record format record = some values →
      ∀ field ∈ Unmarshal.fields, values field = (firstKey record field).map Prod.snd :=
    fun values decodedRecord field member => (found_eq isRecord decodedRecord member).2
  constructor
  · intro isSome
    obtain ⟨decoded, read⟩ := Option.isSome_iff_exists.mp isSome
    obtain ⟨values, decodedRecord, system, proof, input, key, code⟩ := decoded_fields.mp read
    rw [places values decodedRecord _ (by decide)] at system proof input key code
    constructor
    · rw [← record_isSome_iff isRecord, decodedRecord]
      rfl
    · rw [← field_isSome_iff, system]
      rfl
    · intro field member
      rw [← field_isSome_iff]
      simp only [byteFields, List.mem_cons, List.not_mem_nil, or_false] at member
      rcases member with rfl | rfl | rfl | rfl
      · exact Option.isSome_of_eq_some proof
      · exact Option.isSome_of_eq_some input
      · exact Option.isSome_of_eq_some key
      · exact Option.isSome_of_eq_some code
  · intro readable
    have someRecord := (record_isSome_iff isRecord).mpr readable.keys
    obtain ⟨values, decodedRecord⟩ := Option.isSome_iff_exists.mp someRecord
    have some_of_bytes : ∀ field ∈ byteFields, ∃ content,
        Unmarshal.field [] (Unmarshal.byteSlice formats format) (values field) = some content := by
      intro field member
      rw [places values decodedRecord field (List.mem_cons_of_mem _ member),
        ← Option.isSome_iff_exists, field_isSome_iff]
      exact readable.bytes field member
    have someSystem : ∃ number, Unmarshal.field 0 (Unmarshal.provingSystem format)
        (values .provingSystem) = some number := by
      rw [places values decodedRecord _ (by decide), ← Option.isSome_iff_exists, field_isSome_iff]
      exact readable.provingSystem
    obtain ⟨provingSystemId, system⟩ := someSystem
    obtain ⟨proof, proofRead⟩ := some_of_bytes .proof (by decide)
    obtain ⟨pubInput, inputRead⟩ := some_of_bytes .pubInput (by decide)
    obtain ⟨verificationKey, keyRead⟩ := some_of_bytes .verificationKey (by decide)
    obtain ⟨vmProgramCode, codeRead⟩ := some_of_bytes .vmProgramCode (by decide)
    rw [Option.isSome_iff_exists]
    refine ⟨⟨provingSystemId, proof, pubInput, verificationKey, vmProgramCode⟩, ?_⟩
    rw [decoded_fields]
    exact ⟨values, decodedRecord, system, proofRead, inputRead, keyRead, codeRead⟩

/-! ## The batch -/

theorem batch_eq_iff {value : Value} {accepted : List AlignedLayer.VerificationData}
    (checked : Deserialize.batch formats format value = some accepted) :
    (∀ batch, Unmarshal.batch formats format value = some batch →
      batch = accepted.map VerificationData.ofSdk) ↔ ReadAlike formats format value := by
  unfold Deserialize.batch at checked
  unfold Unmarshal.batch ReadAlike records
  split at checked
  case h_2 => cases checked
  case h_1 items isArray =>
    rw [isArray]
    dsimp only
    have everyRecord : ∀ record ∈ items, ∃ data,
        Deserialize.verificationData formats format record = some data := by
      intro record member
      rw [← Option.isSome_iff_exists]
      exact FieldMatching.mapM_isSome_iff.mp (Option.isSome_of_eq_some checked) record member
    have readable : (items.mapM (Unmarshal.verificationData formats format)).isSome ↔
        ∀ record ∈ items, Readable formats format record := by
      rw [FieldMatching.mapM_isSome_iff]
      apply forall₂_congr
      intro record member
      obtain ⟨data, isData⟩ := everyRecord record member
      exact verificationData_isSome_iff isData
    rw [← readable]
    cases read : items.mapM (Unmarshal.verificationData formats format) with
    | none => simp
    | some batch =>
        simp only [Option.some.injEq, forall_eq', Option.isSome_some, forall_const]
        rw [FieldMatching.mapM_eq_map_iff checked read]
        apply forall₂_congr
        intro record member
        obtain ⟨data, isData⟩ := everyRecord record member
        obtain ⟨decoded, isDecoded⟩ := Option.isSome_iff_exists.mp
          (FieldMatching.mapM_isSome_iff.mp (Option.isSome_of_eq_some read) record member)
        rw [← verificationData_eq_iff isData isDecoded, isData, isDecoded]
        simp

theorem untag_of_batch {value : Value} {accepted : List AlignedLayer.VerificationData}
    (checked : Deserialize.batch formats format value = some accepted) :
    ∃ items, value.untag = .array items := by
  unfold Deserialize.batch at checked
  split at checked
  case h_1 items isArray => exact ⟨items, isArray⟩
  case h_2 => cases checked

theorem untag_of_unmarshal {value : Value} {batch : List VerificationData}
    (read : Unmarshal.batch formats format value = some batch) :
    value.untag = .null ∨ ∃ items, value.untag = .array items := by
  unfold Unmarshal.batch at read
  split at read
  case h_1 isNull => exact .inl isNull
  case h_2 items isArray => exact .inr ⟨items, isArray⟩
  case h_3 => cases read

/-! ## The bytes -/

theorem fromReader_eq_some {batchBytes : Bytes} {accepted : List AlignedLayer.VerificationData}
    (checked : Deserialize.fromReader formats batchBytes = some accepted) :
    ∃ item rest, formats.cborItem batchBytes = some (item, rest) ∧
      Deserialize.batch formats .cbor item = some accepted := by
  unfold Deserialize.fromReader at checked
  split at checked
  case h_1 item rest isItem =>
    split at checked
    case isTrue => exact ⟨item, rest, isItem, checked⟩
    case isFalse => cases checked
  case h_2 => cases checked

theorem fromSlice_eq_some {batchBytes : Bytes} {accepted : List AlignedLayer.VerificationData}
    (checked : Deserialize.fromSlice formats batchBytes = some accepted) :
    ∃ value, formats.jsonText batchBytes = some value ∧
      Deserialize.batch formats .json value = some accepted := by
  unfold Deserialize.fromSlice at checked
  split at checked
  case h_1 value isValue =>
    split at checked
    case isTrue => exact ⟨value, isValue, checked⟩
    case isFalse => cases checked
  case h_2 => cases checked

theorem unmarshal_cbor_eq_some {batchBytes : Bytes} {batch : List VerificationData} :
    Unmarshal.cbor formats batchBytes = some batch ↔
      ∃ item, formats.cborItem batchBytes = some (item, []) ∧ formats.fxamacker item = true ∧
        Unmarshal.batch formats .cbor item = some batch := by
  unfold Unmarshal.cbor
  split
  case h_1 item isItem => simp [isItem]
  case h_2 other =>
    simp only [reduceCtorEq, false_iff, not_exists, not_and]
    intro item isItem
    exact absurd isItem (other item)

theorem unmarshal_json_eq_some {batchBytes : Bytes} {batch : List VerificationData} :
    Unmarshal.json formats batchBytes = some batch ↔
      ∃ value, formats.jsonText batchBytes = some value ∧ formats.ugorji value = true ∧
        Unmarshal.batch formats .json value = some batch := by
  unfold Unmarshal.json
  split
  case h_1 value isValue => simp [isValue]
  case h_2 isNone => simp [isNone]

theorem decodedBatch_of_verified {keccak : Bytes → Bytes32}
    {crate : MerkleTreeCrate VerificationDataCommitment Bytes32} {batchBytes : Bytes}
    {merkleRoot : Bytes32}
    (verified : innerVerifyMerkleTreeBatchFfi formats keccak crate batchBytes merkleRoot = true) :
    ∃ accepted, decodedBatch formats batchBytes = some accepted := by
  unfold innerVerifyMerkleTreeBatchFfi at verified
  split at verified
  · cases verified
  · split at verified
    case h_1 => cases verified
    case h_2 accepted isBatch => exact ⟨accepted, isBatch⟩

theorem decodedBatch_cases {batchBytes : Bytes} {accepted : List AlignedLayer.VerificationData}
    (decoded : decodedBatch formats batchBytes = some accepted) :
    Deserialize.fromReader formats batchBytes = some accepted ∨
      (Deserialize.fromReader formats batchBytes = none ∧
        Deserialize.fromSlice formats batchBytes = some accepted) := by
  rw [decodedBatch, Option.orElse_eq_orElse, Option.orElse_eq_or, Option.or_eq_some_iff] at decoded
  exact decoded

/-- The operator verifies the batch whose root was checked, unless it fails, if
and only if the bytes read alike. -/
theorem verified_batch_eq_checked_iff {keccak : Bytes → Bytes32}
    {crate : MerkleTreeCrate VerificationDataCommitment Bytes32} {batchBytes : Bytes}
    {expectedMerkleRoot : Bytes32}
    (verified : innerVerifyMerkleTreeBatchFfi formats keccak crate batchBytes
      expectedMerkleRoot = true) :
    ∃ accepted, decodedBatch formats batchBytes = some accepted ∧
      ((∀ batch, getBatchFromDataService formats keccak crate batchBytes expectedMerkleRoot =
          some batch → batch = accepted.map VerificationData.ofSdk) ↔
        BytesReadAlike formats batchBytes) := by
  obtain ⟨accepted, decoded⟩ := decodedBatch_of_verified verified
  refine ⟨accepted, decoded, ?_⟩
  rw [getBatchFromDataService, if_pos verified, Option.orElse_eq_orElse, Option.orElse_eq_or]
  rcases decodedBatch_cases decoded with isCbor | ⟨noCbor, isJson⟩
  · obtain ⟨item, rest, isItem, isBatch⟩ := fromReader_eq_some isCbor
    have noText := formats.disjoint _ _ _ isItem (.inr (untag_of_batch isBatch))
    have noJson : Unmarshal.json formats batchBytes = none := by
      rw [Unmarshal.json, noText]
    rw [noJson, Option.or_none]
    constructor
    · intro same
      constructor
      · intro _ first isFirst reads
        rw [isItem] at isFirst
        cases isFirst
        rw [← batch_eq_iff isBatch]
        intro batch read
        exact same batch (unmarshal_cbor_eq_some.mpr ⟨item, isItem, reads, read⟩)
      · intro noCbor
        rw [isCbor] at noCbor
        cases noCbor
    · intro alike batch read
      obtain ⟨first, isFirst, reads, read⟩ := unmarshal_cbor_eq_some.mp read
      have settled := alike.cbor (Option.isSome_of_eq_some isCbor) first isFirst reads
      rw [isItem] at isFirst
      cases isFirst
      exact (batch_eq_iff isBatch).mpr settled batch read
  · obtain ⟨value, isValue, isBatch⟩ := fromSlice_eq_some isJson
    have noGoCbor : Unmarshal.cbor formats batchBytes = none := by
      rw [Option.eq_none_iff_forall_ne_some]
      intro batch read
      obtain ⟨item, isItem, -, read⟩ := unmarshal_cbor_eq_some.mp read
      rw [formats.disjoint _ _ _ isItem (untag_of_unmarshal read)] at isValue
      cases isValue
    rw [noGoCbor, Option.none_or]
    constructor
    · intro same
      constructor
      · intro isCbor
        rw [noCbor] at isCbor
        cases isCbor
      · intro _ text isText reads
        rw [isValue] at isText
        cases isText
        rw [← batch_eq_iff isBatch]
        intro batch read
        exact same batch (unmarshal_json_eq_some.mpr ⟨value, isValue, reads, read⟩)
    · intro alike batch read
      obtain ⟨text, isText, reads, read⟩ := unmarshal_json_eq_some.mp read
      have settled := alike.json noCbor text isText reads
      rw [isValue] at isText
      cases isText
      exact (batch_eq_iff isBatch).mpr settled batch read

/-! ## A capitalized key -/

/-- A CBOR batch of one SP1 proof, with the given key for the public input. -/
def singleProof (publicInputKey : String) : Bytes :=
  [0x81, 0xA4] ++ DefiniteCbor.text "proving_system" ++ DefiniteCbor.text "SP1" ++
    DefiniteCbor.text "proof" ++ [0x41, 7] ++ DefiniteCbor.text publicInputKey ++ [0x41, 1] ++
    DefiniteCbor.text "proof_generator_addr" ++
    DefiniteCbor.text "0x0000000000000000000000000000000000000001"

/-- A batch of one proof is checked against the proof's leaf. -/
theorem verified_single (keccak : Bytes → Bytes32) {batchBytes : Bytes}
    {data : AlignedLayer.VerificationData} (nonempty : batchBytes ≠ [])
    (decoded : decodedBatch formats batchBytes = some [data]) :
    innerVerifyMerkleTreeBatchFfi formats keccak
      (.reference (VerificationCommitmentBatch.hashData keccak)
        (VerificationCommitmentBatch.hashNewParent keccak)) batchBytes
      (data.leafHash keccak) = true := by
  rw [innerVerifyMerkleTreeBatchFfi, if_neg nonempty, decoded]
  simp [MerkleTreeCrate.reference, MerkleTree.root_singleton, VerificationData.leafHash]

/-- With the exact key both decoders read the public input. -/
theorem verified_batch_eq_checked_iff_single : ∃ accepted,
    decodedBatch DefiniteCbor.formats (singleProof "pub_input") = some accepted ∧
      ((∀ batch, getBatchFromDataService DefiniteCbor.formats Keccak256.keccak256
          (.reference (VerificationCommitmentBatch.hashData Keccak256.keccak256)
            (VerificationCommitmentBatch.hashNewParent Keccak256.keccak256))
          (singleProof "pub_input")
          (VerificationData.leafHash Keccak256.keccak256 ⟨.sp1, [7], some [1], none, none, 1⟩) =
            some batch → batch = accepted.map VerificationData.ofSdk) ↔
        BytesReadAlike DefiniteCbor.formats (singleProof "pub_input")) :=
  verified_batch_eq_checked_iff (verified_single Keccak256.keccak256 (by decide) (by decide +kernel))

/-- With a capitalized key only Go reads it. -/
theorem verified_batch_ne_checked :
    innerVerifyMerkleTreeBatchFfi DefiniteCbor.formats Keccak256.keccak256
        (.reference (VerificationCommitmentBatch.hashData Keccak256.keccak256)
          (VerificationCommitmentBatch.hashNewParent Keccak256.keccak256))
        (singleProof "Pub_Input")
        (VerificationData.leafHash Keccak256.keccak256 ⟨.sp1, [7], none, none, none, 1⟩) = true ∧
      decodedBatch DefiniteCbor.formats (singleProof "Pub_Input") =
        some [⟨.sp1, [7], none, none, none, 1⟩] ∧
      getBatchFromDataService DefiniteCbor.formats Keccak256.keccak256
          (.reference (VerificationCommitmentBatch.hashData Keccak256.keccak256)
            (VerificationCommitmentBatch.hashNewParent Keccak256.keccak256))
          (singleProof "Pub_Input")
          (VerificationData.leafHash Keccak256.keccak256 ⟨.sp1, [7], none, none, none, 1⟩) =
        some [⟨3, [7], [1], [], []⟩] ∧
      (⟨3, [7], [1], [], []⟩ : VerificationData) ≠ .ofSdk ⟨.sp1, [7], none, none, none, 1⟩ := by
  have decoded : decodedBatch DefiniteCbor.formats (singleProof "Pub_Input") =
      some [⟨.sp1, [7], none, none, none, 1⟩] := by decide +kernel
  have verified := verified_single Keccak256.keccak256 (by decide) decoded
  refine ⟨verified, decoded, ?_, by decide⟩
  rw [getBatchFromDataService, if_pos verified]
  decide +kernel

end AlignedLayer.Operator
