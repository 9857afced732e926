import Mathlib.Data.Set.Function
import Mathlib.Data.Vector.Basic
import Mathlib.Tactic.Common

/-!
# Typed structured data

What is hashed for a signature over a struct: the domain of the application,
and the struct with the text of its type.  Every member is one word, so the
encoding of a struct is its type and its members in a row.  Two signatures
cover the same hash only if they cover the same domain, type and members.
-/

namespace AlignedLayer.Eip712

abbrev Word := Vector UInt8 32

/-! ## Numbers -/

/-- A `uint256`, most significant byte first. -/
def numberWord (number : Nat) : Word :=
  Vector.ofFn fun index => UInt8.ofNat (number / 256 ^ (31 - index.val))

/-- Numbers of `width` digits that agree in every digit are equal. -/
theorem eq_of_digits_eq {base width left right : Nat} (leftBound : left < base ^ width)
    (rightBound : right < base ^ width)
    (same : ∀ position < width, left / base ^ position % base = right / base ^ position % base) :
    left = right := by
  induction width generalizing left right with
  | zero =>
      rw [Nat.pow_zero, Nat.lt_one_iff] at leftBound rightBound
      rw [leftBound, rightBound]
  | succ width induction =>
      rw [Nat.pow_succ] at leftBound rightBound
      have lowest := same 0 (Nat.succ_pos width)
      simp only [Nat.pow_zero, Nat.div_one] at lowest
      have upper : left / base = right / base := by
        apply induction (Nat.div_lt_of_lt_mul (Nat.mul_comm _ _ ▸ leftBound))
          (Nat.div_lt_of_lt_mul (Nat.mul_comm _ _ ▸ rightBound))
        intro position bound
        rw [Nat.div_div_eq_div_mul, Nat.div_div_eq_div_mul, ← Nat.pow_succ']
        exact same (position + 1) (Nat.succ_lt_succ bound)
      calc left = base * (left / base) + left % base := (Nat.div_add_mod left base).symm
        _ = base * (right / base) + right % base := by rw [upper, lowest]
        _ = right := Nat.div_add_mod right base

theorem numberWord_injOn : Set.InjOn numberWord {number | number < 2 ^ 256} := by
  intro left leftBound right rightBound same
  have power : (2 : Nat) ^ 256 = 256 ^ 32 := by decide
  rw [Set.mem_ofPred_eq, power] at leftBound rightBound
  apply eq_of_digits_eq leftBound rightBound
  intro position bound
  have index : 31 - position < 32 := by omega
  have bytes : (numberWord left)[31 - position] = (numberWord right)[31 - position] := by
    rw [same]
  simp only [numberWord, Vector.getElem_ofFn] at bytes
  rw [show 31 - (31 - position) = position by omega] at bytes
  simpa using congrArg UInt8.toNat bytes

/-! ## Structs -/

/-- The text of the type with its members, and the words of the members. -/
structure Struct where
  type : List UInt8
  members : List Word

structure Domain where
  name : List UInt8
  version : List UInt8
  chainId : Nat
  /-- The address of the contract, as a number. -/
  verifyingContract : Nat

/-- `EIP712Domain(string name,string version,uint256 chainId,address verifyingContract)`. -/
def domainType : List UInt8 :=
  "EIP712Domain(string name,string version,uint256 chainId,address verifyingContract)".toList.map
    fun character => UInt8.ofNat character.toNat

section Hash

variable (hash : List UInt8 → Word)

def encodeData (struct : Struct) : List UInt8 :=
  (hash struct.type).toList ++ struct.members.flatMap Vector.toList

def hashStruct (struct : Struct) : Word :=
  hash (encodeData hash struct)

namespace Domain

/-- A text is a member through its hash. -/
def toStruct (domain : Domain) : Struct where
  type := domainType
  members := [hash domain.name, hash domain.version, numberWord domain.chainId,
    numberWord domain.verifyingContract]

def separator (domain : Domain) : Word :=
  hashStruct hash (domain.toStruct hash)

end Domain

def signingBytes (domain : Domain) (struct : Struct) : List UInt8 :=
  [0x19, 0x01] ++ (domain.separator hash).toList ++ (hashStruct hash struct).toList

/-- What a signature covers. -/
def signingHash (domain : Domain) (struct : Struct) : Word :=
  hash (signingBytes hash domain struct)

/-! ## What a hash binds -/

/-- Everything that is hashed for a struct. -/
def Struct.messages (struct : Struct) : List (List UInt8) :=
  [struct.type, encodeData hash struct]

/-- Everything that is hashed for a signature. -/
def messages (domain : Domain) (struct : Struct) : List (List UInt8) :=
  [domain.name, domain.version, signingBytes hash domain struct] ++
    (domain.toStruct hash).messages hash ++ struct.messages hash

end Hash

variable {hash : List UInt8 → Word} {hashed : Set (List UInt8)}

theorem flatMap_toList_injective :
    Function.Injective fun words : List Word => words.flatMap Vector.toList := by
  intro left
  induction left with
  | nil =>
      intro right same
      cases right with
      | nil => rfl
      | cons word words =>
          have lengths := congrArg List.length same
          simp only [List.flatMap_nil, List.flatMap_cons, List.length_append, List.length_nil,
            Vector.length_toList] at lengths
          omega
  | cons word words induction =>
      intro right same
      cases right with
      | nil =>
          have lengths := congrArg List.length same
          simp only [List.flatMap_nil, List.flatMap_cons, List.length_append, List.length_nil,
            Vector.length_toList] at lengths
          omega
      | cons other others =>
          simp only [List.flatMap_cons] at same
          obtain ⟨first, rest⟩ := List.append_inj same (by simp)
          rw [Vector.toList_inj.mp first, induction rest]

/-- Equal struct hashes have the same type and the same members. -/
theorem hashStruct_injOn (free : Set.InjOn hash hashed) {left right : Struct}
    (leftHashed : ∀ message ∈ left.messages hash, message ∈ hashed)
    (rightHashed : ∀ message ∈ right.messages hash, message ∈ hashed)
    (same : hashStruct hash left = hashStruct hash right) : left = right := by
  have data : encodeData hash left = encodeData hash right :=
    free (leftHashed _ (by simp [Struct.messages])) (rightHashed _ (by simp [Struct.messages])) same
  obtain ⟨types, members⟩ := List.append_inj data (by simp)
  have sameType : left.type = right.type :=
    free (leftHashed _ (by simp [Struct.messages])) (rightHashed _ (by simp [Struct.messages]))
      (Vector.toList_inj.mp types)
  have sameMembers := flatMap_toList_injective members
  cases left
  cases right
  simp only [Struct.mk.injEq]
  exact ⟨sameType, sameMembers⟩

/-- The numbers of a domain are `uint256` values. -/
def Domain.InRange (domain : Domain) : Prop :=
  domain.chainId < 2 ^ 256 ∧ domain.verifyingContract < 2 ^ 256

/-- A signature is for one domain and one struct. -/
theorem signingHash_injOn (free : Set.InjOn hash hashed) {domain domain' : Domain}
    {struct struct' : Struct} (inRange : domain.InRange) (inRange' : domain'.InRange)
    (isHashed : ∀ message ∈ messages hash domain struct, message ∈ hashed)
    (isHashed' : ∀ message ∈ messages hash domain' struct', message ∈ hashed)
    (same : signingHash hash domain struct = signingHash hash domain' struct') :
    domain = domain' ∧ struct = struct' := by
  have bytes : signingBytes hash domain struct = signingBytes hash domain' struct' :=
    free (isHashed _ (by simp [messages])) (isHashed' _ (by simp [messages])) same
  obtain ⟨front, structs⟩ := List.append_inj' bytes (by simp)
  obtain ⟨-, separators⟩ := List.append_inj' front (by simp)
  have domains : domain.toStruct hash = domain'.toStruct hash := by
    apply hashStruct_injOn free _ _ (Vector.toList_inj.mp separators)
    · intro message member
      exact isHashed _ (List.mem_append_left _ (List.mem_append_right _ member))
    · intro message member
      exact isHashed' _ (List.mem_append_left _ (List.mem_append_right _ member))
  have structsEqual : struct = struct' := by
    apply hashStruct_injOn free _ _ (Vector.toList_inj.mp structs)
    · intro message member
      exact isHashed _ (List.mem_append_right _ member)
    · intro message member
      exact isHashed' _ (List.mem_append_right _ member)
  simp only [Domain.toStruct, Struct.mk.injEq, List.cons.injEq, true_and, and_true] at domains
  obtain ⟨names, versions, chains, contracts⟩ := domains
  have name : domain.name = domain'.name :=
    free (isHashed _ (by simp [messages])) (isHashed' _ (by simp [messages])) names
  have version : domain.version = domain'.version :=
    free (isHashed _ (by simp [messages])) (isHashed' _ (by simp [messages])) versions
  have chainId := numberWord_injOn inRange.1 inRange'.1 chains
  have contract := numberWord_injOn inRange.2 inRange'.2 contracts
  refine ⟨?_, structsEqual⟩
  cases domain
  cases domain'
  simp only [Domain.mk.injEq]
  exact ⟨name, version, chainId, contract⟩

end AlignedLayer.Eip712
