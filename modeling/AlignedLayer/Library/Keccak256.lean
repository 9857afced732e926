import Mathlib.Data.Nat.Notation
import Mathlib.Data.Vector.Basic

/-!
# Keccak-256

The hash function that the statements of this development take as a parameter,
written so that a concrete instance of a statement can be computed.  A lane is
a natural number below `2 ^ 64`, and a state is five rows of five lanes.  The
operations are the ones on `Nat` that the kernel evaluates on literals.
-/

namespace AlignedLayer.Keccak256

abbrev Rows := List (List Nat)

def laneMask : Nat := 0xFFFFFFFFFFFFFFFF

def rotateLeft (amount value : Nat) : Nat :=
  Nat.lor (Nat.shiftLeft (Nat.land value (Nat.shiftRight laneMask amount)) amount)
    (Nat.shiftRight value (Nat.sub 64 amount))

def rotationOffsets : Rows :=
  [[0, 1, 62, 28, 27], [36, 44, 6, 55, 20], [3, 10, 43, 25, 39], [41, 45, 15, 21, 8],
   [18, 2, 61, 56, 14]]

def roundConstants : List Nat :=
  [0x0000000000000001, 0x0000000000008082, 0x800000000000808A, 0x8000000080008000,
   0x000000000000808B, 0x0000000080000001, 0x8000000080008081, 0x8000000000008009,
   0x000000000000008A, 0x0000000000000088, 0x0000000080008009, 0x000000008000000A,
   0x000000008000808B, 0x800000000000008B, 0x8000000000008089, 0x8000000000008003,
   0x8000000000008002, 0x8000000000000080, 0x000000000000800A, 0x800000008000000A,
   0x8000000080008081, 0x8000000000008080, 0x0000000080000001, 0x8000000080008008]

def xorRows (left right : List Nat) : List Nat :=
  List.zipWith Nat.xor left right

def columnParities (state : Rows) : List Nat :=
  state.foldr xorRows [0, 0, 0, 0, 0]

/-- What every column is changed by. -/
def mixParities : List Nat → List Nat
  | [a, b, c, d, e] =>
      [Nat.xor e (rotateLeft 1 b), Nat.xor a (rotateLeft 1 c), Nat.xor b (rotateLeft 1 d),
        Nat.xor c (rotateLeft 1 e), Nat.xor d (rotateLeft 1 a)]
  | parities => parities

def theta (state : Rows) : Rows :=
  state.map (xorRows (mixParities (columnParities state)))

def rho (state : Rows) : Rows :=
  List.zipWith (List.zipWith rotateLeft) rotationOffsets state

def pi : Rows → Rows
  | [[a, b, c, d, e], [f, g, h, i, j], [k, l, m, n, o], [p, q, r, s, t], [u, v, w, x, y]] =>
      [[a, g, m, s, y], [d, j, k, q, w], [b, h, n, t, u], [e, f, l, r, x], [c, i, o, p, v]]
  | state => state

def chiLane (lane next afterNext : Nat) : Nat :=
  Nat.xor lane (Nat.land (Nat.xor laneMask next) afterNext)

def chiRow : List Nat → List Nat
  | [a, b, c, d, e] =>
      [chiLane a b c, chiLane b c d, chiLane c d e, chiLane d e a, chiLane e a b]
  | row => row

def iota (constant : Nat) : Rows → Rows
  | (first :: row) :: rows => (Nat.xor first constant :: row) :: rows
  | state => state

def permute (state : Rows) : Rows :=
  roundConstants.foldl (fun state constant => iota constant ((pi (rho (theta state))).map chiRow))
    state

/-- The bytes of one block: 17 lanes of a state. -/
def rate : Nat := 136

def littleEndian (bytes : List UInt8) : Nat :=
  bytes.foldr (fun byte rest => Nat.add byte.toNat (Nat.mul 256 rest)) 0

def lanesOf : Nat → List UInt8 → List Nat
  | 0, _ => []
  | count + 1, bytes => littleEndian (bytes.take 8) :: lanesOf count (bytes.drop 8)

def rowsOf : Nat → List Nat → Rows
  | 0, _ => []
  | count + 1, lanes => lanes.take 5 :: rowsOf count (lanes.drop 5)

def absorbBlock (state : Rows) (block : List UInt8) : Rows :=
  permute (List.zipWith xorRows state (rowsOf 5 (lanesOf 25 block)))

/-- The last block, with the padding bits at both ends of the padding. -/
def padBlock (rest : List UInt8) : List UInt8 :=
  if rest.length + 1 = rate then
    rest ++ [0x81]
  else
    rest ++ [0x01] ++ List.replicate (rate - 2 - rest.length) 0 ++ [0x80]

/-- The full blocks, and then the padded rest. -/
def absorb : Nat → Rows → List UInt8 → Rows
  | 0, state, rest => absorbBlock state (padBlock rest)
  | blocks + 1, state, bytes => absorb blocks (absorbBlock state (bytes.take rate)) (bytes.drop rate)

def keccak256 (message : List UInt8) : Vector UInt8 32 :=
  let lanes := (absorb (message.length / rate) (rowsOf 5 (List.replicate 25 0)) message).flatten
  Vector.ofFn fun index =>
    UInt8.ofNat (Nat.shiftRight (lanes.getD (index.val / 8) 0) (8 * (index.val % 8)))

example : (keccak256 []).toList =
    [0xc5, 0xd2, 0x46, 0x01, 0x86, 0xf7, 0x23, 0x3c, 0x92, 0x7e, 0x7d, 0xb2, 0xdc, 0xc7, 0x03,
     0xc0, 0xe5, 0x00, 0xb6, 0x53, 0xca, 0x82, 0x27, 0x3b, 0x7b, 0xfa, 0xd8, 0x04, 0x5d, 0x85,
     0xa4, 0x70] := by
  decide +kernel

end AlignedLayer.Keccak256
