import AlignedLayer.Library.FieldMatching
import AlignedLayer.Sdk.VerificationData

/-!
# Reading verification data

What `serde` makes of a CBOR or a JSON document that holds a batch.  The two
formats themselves are parameters: they turn bytes into a tree of values.
-/

namespace AlignedLayer

/-- Text in the formats is UTF-8; the names of the source are ASCII. -/
def ascii (text : String) : Bytes :=
  text.toList.map fun character => UInt8.ofNat character.toNat

inductive Format where
  | cbor
  | json
  deriving DecidableEq

/-- The values of CBOR, of which those of JSON are a part. -/
inductive Value where
  | null
  | unsigned (number : Nat)
  | bytes (content : Bytes)
  | text (content : Bytes)
  | array (items : List Value)
  | map (entries : List (Value × Value))
  | tag (number : Nat) (content : Value)
  /-- A negative or fractional number or a truth value. -/
  | other

namespace Value

/-- The decoders skip tags, except where a number is wanted. -/
def untag : Value → Value
  | .tag _ content => content.untag
  | value => value

/-- A number, also in the form of a bignum (tag 2). -/
def number : Value → Option Nat
  | .unsigned number => some number
  | .tag 2 (.bytes content) => some (content.foldl (fun sum byte => 256 * sum + byte.toNat) 0)
  | .tag 2 _ => none
  | .tag 3 _ => none
  | .tag _ content => content.number
  | _ => none

def byte (value : Value) : Option UInt8 :=
  match value.number with
  | some number => if number < 256 then some (UInt8.ofNat number) else none
  | none => none

end Value

/-- The formats, and where a library refuses a document of its format: too
deep, too long, or text that is not UTF-8. -/
structure Formats where
  /-- The data item the bytes start with, and the bytes after it. -/
  cborItem : Bytes → Option (Value × Bytes)
  /-- The value the bytes are the text of. -/
  jsonText : Bytes → Option Value
  ciborium : Value → Bool
  serdeJson : Value → Bool
  fxamacker : Value → Bool
  ugorji : Value → Bool
  /-- The base64 decoding of a text. -/
  base64 : Bytes → Option Bytes
  /-- The address a text stands for. -/
  address : Bytes → Option Address
  /-- CBOR arrays, null and tags start with a byte above 127, JSON texts do not. -/
  disjoint : ∀ bytes item rest, cborItem bytes = some (item, rest) →
    item.untag = .null ∨ (∃ items, item.untag = .array items) → jsonText bytes = none
  /-- Four characters stand for at most three bytes. -/
  base64_shorter : ∀ text content, base64 text = some content →
    content.length < text.length ∨ text = [] ∧ content = []

/-- The fields of `VerificationData`, in the order of the declaration. -/
inductive Field where
  | provingSystem
  | proof
  | pubInput
  | verificationKey
  | vmProgramCode
  | proofGeneratorAddr
  deriving DecidableEq

namespace Field

def all : List Field :=
  [.provingSystem, .proof, .pubInput, .verificationKey, .vmProgramCode, .proofGeneratorAddr]

def name : Field → Bytes
  | .provingSystem => ascii "proving_system"
  | .proof => ascii "proof"
  | .pubInput => ascii "pub_input"
  | .verificationKey => ascii "verification_key"
  | .vmProgramCode => ascii "vm_program_code"
  | .proofGeneratorAddr => ascii "proof_generator_addr"

/-- Where the field stands in a record without keys. -/
def position : Field → Nat
  | .provingSystem => 0
  | .proof => 1
  | .pubInput => 2
  | .verificationKey => 3
  | .vmProgramCode => 4
  | .proofGeneratorAddr => 5

theorem name_injective : Function.Injective name := by
  intro left right same
  cases left <;> cases right <;> first | rfl | exact absurd same (by decide)

theorem mem_all (field : Field) : field ∈ all := by
  cases field <;> decide

end Field

namespace ProvingSystemId

/-- The name of the variant. -/
def name : ProvingSystemId → Bytes
  | .gnarkPlonkBls12_381 => ascii "GnarkPlonkBls12_381"
  | .gnarkPlonkBn254 => ascii "GnarkPlonkBn254"
  | .gnarkGroth16Bn254 => ascii "GnarkGroth16Bn254"
  | .sp1 => ascii "SP1"
  | .risc0 => ascii "Risc0"
  | .circomGroth16Bn256 => ascii "CircomGroth16Bn256"

def ofName (text : Bytes) : Option ProvingSystemId :=
  [.gnarkPlonkBls12_381, .gnarkPlonkBn254, .gnarkGroth16Bn254, .sp1, .risc0,
    .circomGroth16Bn256].find? fun provingSystem => name provingSystem = text

end ProvingSystemId

namespace Deserialize

/-- Field names may be byte strings in CBOR. -/
def key (format : Format) (value : Value) : Option Bytes :=
  match value.untag with
  | .text content => some content
  | .bytes content => if format = .cbor then some content else none
  | _ => none

/-- A variant without content; in JSON also as a map with its name. -/
def variant (format : Format) (value : Value) : Option ProvingSystemId :=
  match value.untag with
  | .text name => ProvingSystemId.ofName name
  | .map [(.text name, .null)] => if format = .json then ProvingSystemId.ofName name else none
  | _ => none

/-- `serde_bytes`: the characters of a JSON string are taken as they are. -/
def byteBuf (format : Format) (value : Value) : Option Bytes :=
  match value.untag with
  | .bytes content => some content
  | .array items => items.mapM Value.byte
  | .text content => if format = .json then some content else none
  | _ => none

def optionBytes (format : Format) : Value → Option (Option Bytes)
  | .null => some none
  | value => (byteBuf format value).map some

/-- The default of an absent field is `None`. -/
def optionField (format : Format) : Option Value → Option (Option Bytes)
  | none => some none
  | some value => optionBytes format value

def address (formats : Formats) (value : Value) : Option Address :=
  match value.untag with
  | .text content => formats.address content
  | _ => none

/-- The values of the fields.  Only JSON records may do without keys. -/
def record (format : Format) (value : Value) : Option (FieldMatching.Found Field Value) :=
  match value.untag with
  | .map entries => do
      let entries ← entries.mapM fun entry => (key format entry.1).map fun name => (name, entry.2)
      FieldMatching.collectExact Field.all Field.name entries
  | .array items =>
      if format = .json ∧ items.length = Field.all.length then
        some fun field => items[field.position]?
      else
        none
  | _ => none

/-- The derived implementation for `VerificationData`. -/
def verificationData (formats : Formats) (format : Format) (value : Value) :
    Option VerificationData := do
  let found ← record format value
  let provingSystem ← (found .provingSystem).bind (variant format)
  let proof ← (found .proof).bind (byteBuf format)
  let pubInput ← optionField format (found .pubInput)
  let verificationKey ← optionField format (found .verificationKey)
  let vmProgramCode ← optionField format (found .vmProgramCode)
  let proofGeneratorAddr ← (found .proofGeneratorAddr).bind (address formats)
  return ⟨provingSystem, proof, pubInput, verificationKey, vmProgramCode, proofGeneratorAddr⟩

def batch (formats : Formats) (format : Format) (value : Value) :
    Option (List VerificationData) :=
  match value.untag with
  | .array items => items.mapM (verificationData formats format)
  | _ => none

/-- `ciborium::from_reader` stops after the first data item. -/
def fromReader (formats : Formats) (bytes : Bytes) : Option (List VerificationData) :=
  match formats.cborItem bytes with
  | some (item, _) => if formats.ciborium item then batch formats .cbor item else none
  | none => none

/-- `serde_json::from_slice`. -/
def fromSlice (formats : Formats) (bytes : Bytes) : Option (List VerificationData) :=
  match formats.jsonText bytes with
  | some value => if formats.serdeJson value then batch formats .json value else none
  | none => none

end Deserialize

/-! ## CBOR with definite lengths -/

namespace DefiniteCbor

/-- Major type and argument of a data item, and the bytes after them. -/
def head : Bytes → Option (Nat × Nat × Bytes)
  | [] => none
  | initial :: rest =>
      let major := initial.toNat / 32
      let info := initial.toNat % 32
      if info < 24 then
        some (major, info, rest)
      else if info < 28 ∧ 2 ^ (info - 24) ≤ rest.length then
        let (argument, rest) := rest.splitAt (2 ^ (info - 24))
        some (major, argument.foldl (fun sum byte => 256 * sum + byte.toNat) 0, rest)
      else
        none

def readMany (read : Bytes → Option (Value × Bytes)) : Nat → Bytes → Option (List Value × Bytes)
  | 0, bytes => some ([], bytes)
  | count + 1, bytes => do
      let (value, rest) ← read bytes
      let (values, rest) ← readMany read count rest
      return (value :: values, rest)

def pairs : List Value → List (Value × Value)
  | key :: value :: rest => (key, value) :: pairs rest
  | _ => []

def content (make : Bytes → Value) (length : Nat) (bytes : Bytes) : Option (Value × Bytes) :=
  if length ≤ bytes.length then some (make (bytes.take length), bytes.drop length) else none

/-- A data item that is not nested deeper than the given number. -/
def item : Nat → Bytes → Option (Value × Bytes)
  | 0, _ => none
  | depth + 1, bytes =>
      match head bytes with
      | none => none
      | some (major, argument, rest) =>
          match major with
          | 0 => some (.unsigned argument, rest)
          | 1 => some (.other, rest)
          | 2 => content .bytes argument rest
          | 3 => content .text argument rest
          | 4 => (readMany (item depth) argument rest).map fun (items, rest) =>
              (.array items, rest)
          | 5 => (readMany (item depth) (2 * argument) rest).map fun (items, rest) =>
              (.map (pairs items), rest)
          | 6 => (item depth rest).map fun (content, rest) => (.tag argument content, rest)
          | _ => some (if argument = 22 ∨ argument = 23 then .null else .other, rest)

def hexDigit (character : UInt8) : Option Nat :=
  if 48 ≤ character ∧ character ≤ 57 then some (character.toNat - 48)
  else if 97 ≤ character ∧ character ≤ 102 then some (character.toNat - 87)
  else if 65 ≤ character ∧ character ≤ 70 then some (character.toNat - 55)
  else none

/-- `0x` and forty hexadecimal digits. -/
def address : Bytes → Option Address
  | 48 :: 120 :: digits =>
      if digits.length = 40 then
        (digits.mapM hexDigit).map fun digits =>
          BitVec.ofNat 160 (digits.foldl (fun sum digit => 16 * sum + digit) 0)
      else
        none
  | _ => none

/-- The formats as far as CBOR documents with definite lengths need them. -/
def formats : Formats where
  cborItem := item 32
  jsonText _ := none
  ciborium _ := true
  serdeJson _ := true
  fxamacker _ := true
  ugorji _ := true
  base64 _ := none
  address := address
  disjoint _ _ _ _ _ := rfl
  base64_shorter _ _ decoded := by cases decoded

/-- The encoding of a text of less than 256 characters. -/
def text (characters : String) : Bytes :=
  if characters.length < 24 then
    UInt8.ofNat (96 + characters.length) :: ascii characters
  else
    120 :: UInt8.ofNat characters.length :: ascii characters

end DefiniteCbor

end AlignedLayer
