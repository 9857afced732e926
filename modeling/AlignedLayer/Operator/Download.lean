import AlignedLayer.Operator.Verify
import AlignedLayer.Sdk.BatchInclusion
import AlignedLayer.Sdk.Deserialize

/-!
# The downloaded batch

The operator hands the bytes of a batch to the Rust library, which decodes
them and compares the Merkle root.  What it verifies afterwards is what the
Go decoders make of the same bytes.
-/

namespace AlignedLayer.Operator

section MerkleTree

variable (formats : Formats) (keccak : Bytes → Bytes32)
  (crate : MerkleTreeCrate VerificationDataCommitment Bytes32)

/-- The batch the Merkle root is computed of: CBOR, else JSON. -/
def decodedBatch (batchBytes : Bytes) : Option (List AlignedLayer.VerificationData) :=
  Deserialize.fromReader formats batchBytes <|> Deserialize.fromSlice formats batchBytes

def innerVerifyMerkleTreeBatchFfi (batchBytes : Bytes) (merkleRoot : Bytes32) : Bool :=
  if batchBytes = [] then
    false
  else
    match decodedBatch formats batchBytes with
    | none => false
    | some batch =>
        if batch.isEmpty then
          false
        else
          match crate.build (batch.map (VerificationDataCommitment.ofVerificationData keccak)) with
          | none => false
          | some computed => computed = merkleRoot

end MerkleTree

/-! ## The Go decoders -/

/-- The numbers of the constants `GnarkPlonkBls12_381` to `CircomGroth16Bn256`. -/
def provingSystemIdFromString (provingSystem : Bytes) : Option UInt16 :=
  if provingSystem = ascii "GnarkPlonkBls12_381" then some 0
  else if provingSystem = ascii "GnarkPlonkBn254" then some 1
  else if provingSystem = ascii "GnarkGroth16Bn254" then some 2
  else if provingSystem = ascii "SP1" then some 3
  else if provingSystem = ascii "Risc0" then some 4
  else if provingSystem = ascii "CircomGroth16Bn256" then some 5
  else none

/-- `Unmarshal` into an empty string; null leaves it empty. -/
def unmarshalString (value : Value) : Option Bytes :=
  match value.untag with
  | .text content => some content
  | .null => some []
  | _ => none

/-- An unknown name leaves the receiver as it is. -/
def unmarshalCBOR (receiver : UInt16) (value : Value) : Option UInt16 :=
  match unmarshalString value with
  | none => none
  | some statusStr => some ((provingSystemIdFromString statusStr).getD receiver)

def unmarshalJSON (value : Value) : Option UInt16 :=
  match unmarshalString value with
  | none => none
  | some provingSystem => provingSystemIdFromString provingSystem

namespace Unmarshal

/-- The receiver is a fresh field, 0; the JSON decoder does not call
`UnmarshalJSON` for null. -/
def provingSystem : Format → Value → Option UInt16
  | .cbor, value => unmarshalCBOR 0 value
  | .json, .null => some 0
  | .json, value => unmarshalJSON value

/-- An element of a byte slice; in CBOR null leaves it zero. -/
def byte (format : Format) (value : Value) : Option UInt8 :=
  match value.untag with
  | .null => if format = .cbor then some 0 else none
  | _ => value.byte

/-- A byte slice.  JSON strings are base64. -/
def byteSlice (formats : Formats) (format : Format) (value : Value) : Option Bytes :=
  match value.untag with
  | .null => some []
  | .bytes content => some content
  | .array items => items.mapM (byte format)
  | .text content => if format = .json then formats.base64 content else none
  | _ => none

/-- A field name must be text. -/
def key : Value → Option Bytes
  | .text content => some content
  | _ => none

def lowerByte (byte : UInt8) : UInt8 :=
  if 65 ≤ byte ∧ byte ≤ 90 then byte + 32 else byte

/-- Names that agree up to case become equal. -/
def lower (text : Bytes) : Bytes :=
  text.map lowerByte

/-- The fields of the struct `VerificationData`. -/
def fields : List Field :=
  [.provingSystem, .proof, .pubInput, .verificationKey, .vmProgramCode]

/-- The values of the fields.  Null leaves the struct as it is. -/
def record (format : Format) (value : Value) : Option (FieldMatching.Found Field Value) :=
  match value.untag with
  | .null => some fun _ => none
  | .map entries => do
      let entries ← entries.mapM fun entry => (key entry.1).map fun name => (name, entry.2)
      return FieldMatching.collectFirst fields Field.name lower entries
  | .array items =>
      if format = .json then
        some fun field => if field ∈ fields then items[field.position]? else none
      else
        none
  | _ => none

/-- A field without a value keeps its zero value. -/
def field {Result : Type} (zero : Result) (read : Value → Option Result) :
    Option Value → Option Result
  | none => some zero
  | some value => read value

def verificationData (formats : Formats) (format : Format) (value : Value) :
    Option VerificationData := do
  let found ← record format value
  let provingSystemId ← field 0 (provingSystem format) (found .provingSystem)
  let proof ← field [] (byteSlice formats format) (found .proof)
  let pubInput ← field [] (byteSlice formats format) (found .pubInput)
  let verificationKey ← field [] (byteSlice formats format) (found .verificationKey)
  let vmProgramCode ← field [] (byteSlice formats format) (found .vmProgramCode)
  return ⟨provingSystemId, proof, pubInput, verificationKey, vmProgramCode⟩

/-- The slice `batch`. -/
def batch (formats : Formats) (format : Format) (value : Value) :
    Option (List VerificationData) :=
  match value.untag with
  | .null => some []
  | .array items => items.mapM (verificationData formats format)
  | _ => none

/-- `DecMode.Unmarshal` rejects bytes after the data item. -/
def cbor (formats : Formats) (bytes : Bytes) : Option (List VerificationData) :=
  match formats.cborItem bytes with
  | some (item, []) => if formats.fxamacker item then batch formats .cbor item else none
  | _ => none

/-- `Decoder.Decode` with a `JsonHandle`. -/
def json (formats : Formats) (bytes : Bytes) : Option (List VerificationData) :=
  match formats.jsonText bytes with
  | some value => if formats.ugorji value then batch formats .json value else none
  | none => none

end Unmarshal

/-- `getBatchFromDataService`, once the bytes are there.  A failed CBOR
attempt can leave entries behind only for an array, which is no JSON text. -/
def getBatchFromDataService (formats : Formats) (keccak : Bytes → Bytes32)
    (crate : MerkleTreeCrate VerificationDataCommitment Bytes32) (batchBytes : Bytes)
    (expectedMerkleRoot : Bytes32) : Option (List VerificationData) :=
  if innerVerifyMerkleTreeBatchFfi formats keccak crate batchBytes expectedMerkleRoot then
    Unmarshal.cbor formats batchBytes <|> Unmarshal.json formats batchBytes
  else
    none

/-! ## Facts about the decoders -/

theorem lower_name_injective : Function.Injective fun field => Unmarshal.lower (Field.name field) := by
  intro left right same
  cases left <;> cases right <;> first | rfl | exact absurd same (by decide)

/-- Both languages give the names of the proving systems the same numbers. -/
theorem provingSystemIdFromString_name (provingSystem : ProvingSystemId) :
    provingSystemIdFromString provingSystem.name = some provingSystem.toByte.toUInt16 := by
  cases provingSystem <;> decide

theorem ProvingSystemId.name_of_ofName {text : Bytes} {provingSystem : ProvingSystemId}
    (named : ProvingSystemId.ofName text = some provingSystem) : text = provingSystem.name := by
  have found := List.find?_some named
  simpa using (of_decide_eq_true found).symm

end AlignedLayer.Operator
