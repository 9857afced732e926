import AlignedLayer.Library.Cbor
import AlignedLayer.Sdk.Constants
import AlignedLayer.Sdk.Deserialize

/-!
# Writing verification data

What `cbor_serialize` makes of a batch: an array of maps, from the names of the
present fields to their values.  Byte fields are byte strings, the variant of
the proving system and the address are texts.
-/

namespace AlignedLayer

namespace Serialize

def hexCharacter (digit : Nat) : UInt8 :=
  if digit < 10 then UInt8.ofNat (48 + digit) else UInt8.ofNat (87 + digit)

/-- `0x` and forty hexadecimal digits. -/
def address (address : Address) : Bytes :=
  ascii "0x" ++ address.toBytes.toList.flatMap fun byte =>
    [hexCharacter (byte.toNat / 16), hexCharacter (byte.toNat % 16)]

/-- `serialize_option_bytes`; an absent field is skipped. -/
def optionBytes (field : Field) : Option Bytes → List (Field × Bytes)
  | none => []
  | some content => [(field, Cbor.bytes content)]

/-- The fields in the order of the declaration, with their values. -/
def fields (data : VerificationData) : List (Field × Bytes) :=
  [(.provingSystem, Cbor.text data.provingSystem.name), (.proof, Cbor.bytes data.proof)]
    ++ optionBytes .pubInput data.pubInput
    ++ optionBytes .verificationKey data.verificationKey
    ++ optionBytes .vmProgramCode data.vmProgramCode
    ++ [(.proofGeneratorAddr, Cbor.text (address data.proofGeneratorAddr))]

/-- The derived implementation for `VerificationData`. -/
def verificationData (data : VerificationData) : Bytes :=
  Cbor.map ((fields data).map fun entry => (Cbor.text entry.1.name, entry.2))

end Serialize

/-- `cbor_serialize` of a list of verification data. -/
def cborSerialize (data : List VerificationData) : Bytes :=
  Cbor.array (data.map Serialize.verificationData)

namespace Serialize

/-! ## Sizes -/

/-- The bytes of an entry of the map. -/
def entrySize (entry : Field × Bytes) : Nat :=
  (Cbor.text entry.1.name).length + entry.2.length

theorem length_name_lt (field : Field) : field.name.length < 24 := by
  cases field <;> decide

theorem length_variant_le (provingSystem : ProvingSystemId) :
    (Cbor.text provingSystem.name).length ≤ 20 := by
  cases provingSystem <;> decide

theorem length_address (sender : Address) : (address sender).length = 42 := by
  have digits : ∀ content : Bytes, (content.flatMap fun byte =>
      [hexCharacter (byte.toNat / 16), hexCharacter (byte.toNat % 16)]).length =
      2 * content.length := by
    intro content
    induction content with
    | nil => rfl
    | cons byte rest induction =>
        rw [List.flatMap_cons, List.length_append, induction, List.length_cons]
        simp only [List.length_cons, List.length_nil]
        omega
  rw [address, List.length_append, digits, Vector.length_toList]
  rfl

theorem length_addressText_le (sender : Address) :
    (Cbor.text (address sender)).length ≤ 44 := by
  have short := length_address sender
  apply Nat.le_trans (Cbor.length_text_le (by rw [short]; decide))
  rw [short]

/-- An optional field costs its content, and what its name and header take. -/
theorem optionBytes_size_le (field : Field) (content : Option Bytes) :
    ((optionBytes field content).map entrySize).sum ≤
      (content.map List.length).getD 0 + (field.name.length + 10) := by
  cases content with
  | none => exact Nat.zero_le _
  | some content =>
      have value := Cbor.length_bytes_le content
      have key := Cbor.length_text_of_lt (length_name_lt field)
      simp only [optionBytes, entrySize, List.map_cons, List.map_nil, List.sum_cons,
        List.sum_nil, Option.map_some, Option.getD_some]
      omega

theorem length_optionBytes_le (field : Field) (content : Option Bytes) :
    (optionBytes field content).length ≤ 1 := by
  cases content with
  | none => exact Nat.zero_le _
  | some content => exact Nat.le_refl _

theorem length_fields_lt (data : VerificationData) : (fields data).length < 24 := by
  have pubInput := length_optionBytes_le .pubInput data.pubInput
  have verificationKey := length_optionBytes_le .verificationKey data.verificationKey
  have vmProgramCode := length_optionBytes_le .vmProgramCode data.vmProgramCode
  simp only [fields, List.length_append, List.length_cons, List.length_nil]
  omega

theorem length_verificationData (data : VerificationData) :
    (verificationData data).length = 1 + ((fields data).map entrySize).sum := by
  have few : ((fields data).map fun entry => (Cbor.text entry.1.name, entry.2)).length < 24 := by
    rw [List.length_map]
    exact length_fields_lt data
  rw [verificationData, Cbor.length_map_of_lt few, List.map_map]
  rfl

/-- The names, the headers, the variant and the address of a record take at
most 186 bytes. -/
theorem length_verificationData_le (data : VerificationData) :
    (verificationData data).length ≤ data.proof.length
      + (data.pubInput.map List.length).getD 0
      + (data.verificationKey.map List.length).getD 0
      + (data.vmProgramCode.map List.length).getD 0 + 186 := by
  have variant := length_variant_le data.provingSystem
  have proof := Cbor.length_bytes_le data.proof
  have pubInput := optionBytes_size_le .pubInput data.pubInput
  have verificationKey := optionBytes_size_le .verificationKey data.verificationKey
  have vmProgramCode := optionBytes_size_le .vmProgramCode data.vmProgramCode
  have addr := length_addressText_le data.proofGeneratorAddr
  have names : (Cbor.text Field.provingSystem.name).length = 15 ∧
      (Cbor.text Field.proof.name).length = 6 ∧
      (Cbor.text Field.proofGeneratorAddr.name).length = 21 ∧
      Field.pubInput.name.length = 9 ∧ Field.verificationKey.name.length = 16 ∧
      Field.vmProgramCode.name.length = 15 := by
    decide
  rw [length_verificationData, fields]
  simp only [List.map_append, List.sum_append, List.map_cons, List.map_nil, List.sum_cons,
    List.sum_nil, entrySize]
  omega

theorem length_cborSerialize_le (data : List VerificationData) :
    (cborSerialize data).length ≤
      cborArrayMaxOverhead + (data.map fun record => (verificationData record).length).sum := by
  have bound := Cbor.length_array_le (data.map verificationData)
  rw [List.map_map] at bound
  exact bound

end Serialize

end AlignedLayer
