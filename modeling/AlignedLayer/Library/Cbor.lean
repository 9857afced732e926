import Mathlib.Algebra.Order.Ring.Nat
import Mathlib.Data.List.Basic

/-!
# Writing CBOR

A data item starts with its major type and an argument, in as few bytes as
hold the argument.  Strings follow as they are, arrays and maps as the items
they consist of.
-/

namespace Cbor

/-- The last bytes of a number, most significant first. -/
def bigEndian : Nat → Nat → List UInt8
  | 0, _ => []
  | width + 1, number => bigEndian width (number / 256) ++ [UInt8.ofNat number]

def head (major argument : Nat) : List UInt8 :=
  if argument < 24 then [UInt8.ofNat (32 * major + argument)]
  else if argument < 2 ^ 8 then UInt8.ofNat (32 * major + 24) :: bigEndian 1 argument
  else if argument < 2 ^ 16 then UInt8.ofNat (32 * major + 25) :: bigEndian 2 argument
  else if argument < 2 ^ 32 then UInt8.ofNat (32 * major + 26) :: bigEndian 4 argument
  else UInt8.ofNat (32 * major + 27) :: bigEndian 8 argument

def bytes (content : List UInt8) : List UInt8 :=
  head 2 content.length ++ content

def text (content : List UInt8) : List UInt8 :=
  head 3 content.length ++ content

/-- An array of encoded items. -/
def array (items : List (List UInt8)) : List UInt8 :=
  head 4 items.length ++ items.flatten

/-- A map of encoded keys to encoded values. -/
def map (entries : List (List UInt8 × List UInt8)) : List UInt8 :=
  head 5 entries.length ++ entries.flatMap fun entry => entry.1 ++ entry.2

/-! ## Sizes -/

@[simp] theorem length_bigEndian (width number : Nat) :
    (bigEndian width number).length = width := by
  induction width generalizing number with
  | zero => rfl
  | succ width induction =>
      rw [bigEndian, List.length_append, induction, List.length_singleton]

theorem length_head_le (major argument : Nat) : (head major argument).length ≤ 9 := by
  rw [head]
  split_ifs <;> simp

theorem length_head_of_lt (major : Nat) {argument : Nat} (small : argument < 24) :
    (head major argument).length = 1 := by
  rw [head, if_pos small, List.length_singleton]

theorem length_head_le_two (major : Nat) {argument : Nat} (small : argument < 2 ^ 8) :
    (head major argument).length ≤ 2 := by
  rw [head, if_pos small]
  split_ifs <;> simp

theorem length_bytes_le (content : List UInt8) :
    (bytes content).length ≤ content.length + 9 := by
  rw [bytes, List.length_append, Nat.add_comm]
  exact Nat.add_le_add_left (length_head_le 2 _) _

theorem length_text_of_lt {content : List UInt8} (short : content.length < 24) :
    (text content).length = content.length + 1 := by
  rw [text, List.length_append, length_head_of_lt 3 short, Nat.add_comm]

theorem length_text_le {content : List UInt8} (short : content.length < 2 ^ 8) :
    (text content).length ≤ content.length + 2 := by
  rw [text, List.length_append, Nat.add_comm]
  exact Nat.add_le_add_left (length_head_le_two 3 short) _

theorem length_array_le (items : List (List UInt8)) :
    (array items).length ≤ 9 + (items.map List.length).sum := by
  rw [array, List.length_append, List.length_flatten]
  exact Nat.add_le_add_right (length_head_le 4 _) _

theorem length_map_of_lt {entries : List (List UInt8 × List UInt8)}
    (few : entries.length < 24) :
    (map entries).length =
      1 + (entries.map fun entry => entry.1.length + entry.2.length).sum := by
  rw [map, List.length_append, length_head_of_lt 5 few, List.length_flatMap]
  congr 2
  apply List.map_congr_left
  intro entry _
  rw [List.length_append]

end Cbor
