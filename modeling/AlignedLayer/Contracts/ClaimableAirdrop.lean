import AlignedLayer.Sdk.VerificationData

/-!
# The airdrop contract

`ClaimableAirdrop` pays approvals that a Merkle root stands for.  `claim` and
`claimBatch` share `_verifyAndMark` and the mapping of claimed leaves; the
owner sets root, deadline and pause.  The Merkle proof library is a parameter,
and the token either moves the exact amount or reverts.
-/

namespace AlignedLayer

abbrev U256 := BitVec 256

/-- A word of `abi.encode`, most significant byte first. -/
def U256.toBytes (word : U256) : Vector UInt8 32 :=
  Vector.ofFn fun index => UInt8.ofNat (word.toNat / 256 ^ (31 - index.val))

namespace ClaimableAirdrop

/-- What a leaf of the tree approves. -/
structure Approval where
  account : Address
  amount : U256
  validFrom : U256
  deriving DecidableEq

inductive Revert where
  | enforcedPause
  | expectedPause
  | ownableUnauthorizedAccount (account : Address)
  | dropIsNoLongerClaimable
  | arrayLengthMismatch
  | nothingToClaim
  | stageNotYetClaimable
  | stageAlreadyClaimed
  | invalidMerkleProof
  | invalidRoot
  | canOnlyExtendFromCurrentTimestamp
  /-- A checked addition that overflows. -/
  | panic
  | safeERC20FailedOperation
  deriving DecidableEq

structure State where
  owner : Address
  limitTimestampToClaim : U256
  claimMerkleRoot : Bytes32
  hasClaimed : Bytes32 → Bool
  paused : Bool
  /-- The transfers that the token carried out, oldest first. -/
  transfers : List (Address × Nat)

/-- After the initializer. -/
def deployed (foundation : Address) : State where
  owner := foundation
  limitTimestampToClaim := 0
  claimMerkleRoot := Bytes32.zero
  hasClaimed _ := false
  paused := true
  transfers := []

/-- `require(condition, reason)`. -/
def require (condition : Prop) [Decidable condition] (reason : Revert) : Except Revert Unit :=
  if condition then .ok () else .error reason

/-- `abi.encode(account, amount, validFrom)`: an address is padded to a word. -/
def Approval.encode (approval : Approval) : Bytes :=
  List.replicate 12 0 ++ approval.account.toBytes.toList ++ approval.amount.toBytes.toList ++
    approval.validFrom.toBytes.toList

section

variable (keccak : Bytes → Bytes32) (verify : List Bytes32 → Bytes32 → Bytes32 → Bool)

def Approval.leaf (approval : Approval) : Bytes32 :=
  keccak (keccak approval.encode).toList

/-- `_verifyAndMark` for the sender of the call. -/
def verifyAndMark (timestamp : U256) (approval : Approval) (merkleProof : List Bytes32)
    (state : State) : Except Revert State := do
  require (approval.validFrom ≤ timestamp) .stageNotYetClaimable
  let leaf := approval.leaf keccak
  require (¬ state.hasClaimed leaf) .stageAlreadyClaimed
  require (verify merkleProof state.claimMerkleRoot leaf) .invalidMerkleProof
  return { state with hasClaimed := Function.update state.hasClaimed leaf true }

/-- `safeTransferFrom` of the distributor's tokens. -/
def safeTransferFrom (transferSucceeds : Bool) (recipient : Address) (amount : Nat)
    (state : State) : Except Revert State := do
  require transferSucceeds .safeERC20FailedOperation
  return { state with transfers := state.transfers ++ [(recipient, amount)] }

def claim (sender : Address) (timestamp : U256) (transferSucceeds : Bool)
    (amount validFrom : U256) (merkleProof : List Bytes32) (state : State) :
    Except Revert State := do
  require (¬ state.paused) .enforcedPause
  require (timestamp ≤ state.limitTimestampToClaim) .dropIsNoLongerClaimable
  let marked ← verifyAndMark keccak verify timestamp ⟨sender, amount, validFrom⟩ merkleProof state
  safeTransferFrom transferSucceeds sender amount.toNat marked

/-- The loop of `claimBatch`, with the total so far. -/
def claimStages (sender : Address) (timestamp : U256) :
    List ((U256 × U256) × List Bytes32) → Nat → State → Except Revert (State × Nat)
  | [], totalClaimable, state => .ok (state, totalClaimable)
  | ((amount, validFrom), merkleProof) :: stages, totalClaimable, state => do
      let marked ← verifyAndMark keccak verify timestamp ⟨sender, amount, validFrom⟩ merkleProof
        state
      require (totalClaimable + amount.toNat < 2 ^ 256) .panic
      claimStages sender timestamp stages (totalClaimable + amount.toNat) marked

def claimBatch (sender : Address) (timestamp : U256) (transferSucceeds : Bool)
    (amounts validFroms : List U256) (merkleProofs : List (List Bytes32)) (state : State) :
    Except Revert State := do
  require (¬ state.paused) .enforcedPause
  require (timestamp ≤ state.limitTimestampToClaim) .dropIsNoLongerClaimable
  require (amounts.length = validFroms.length ∧ amounts.length = merkleProofs.length)
    .arrayLengthMismatch
  let (marked, totalClaimable) ← claimStages keccak verify sender timestamp
    ((amounts.zip validFroms).zip merkleProofs) 0 state
  require (totalClaimable > 0) .nothingToClaim
  safeTransferFrom transferSucceeds sender totalClaimable marked

end

def onlyOwner (sender : Address) (state : State) : Except Revert Unit :=
  require (sender = state.owner) (.ownableUnauthorizedAccount sender)

def updateMerkleRoot (sender : Address) (newRoot : Bytes32) (state : State) :
    Except Revert State := do
  require state.paused .expectedPause
  onlyOwner sender state
  require (newRoot ≠ Bytes32.zero ∧ newRoot ≠ state.claimMerkleRoot) .invalidRoot
  return { state with claimMerkleRoot := newRoot }

def extendClaimPeriod (sender : Address) (timestamp newTimestamp : U256) (state : State) :
    Except Revert State := do
  require state.paused .expectedPause
  onlyOwner sender state
  require (newTimestamp > state.limitTimestampToClaim ∧ newTimestamp > timestamp)
    .canOnlyExtendFromCurrentTimestamp
  return { state with limitTimestampToClaim := newTimestamp }

def pause (sender : Address) (state : State) : Except Revert State := do
  onlyOwner sender state
  require (¬ state.paused) .enforcedPause
  return { state with paused := true }

def unpause (sender : Address) (state : State) : Except Revert State := do
  onlyOwner sender state
  require state.paused .expectedPause
  return { state with paused := false }

inductive Call where
  | claim (amount validFrom : U256) (merkleProof : List Bytes32)
  | claimBatch (amounts validFroms : List U256) (merkleProofs : List (List Bytes32))
  | updateMerkleRoot (newRoot : Bytes32)
  | extendClaimPeriod (newTimestamp : U256)
  | pause
  | unpause

/-- A call with its sender, the block's time, and whether the token moves the
amount if it is asked to. -/
structure Transaction where
  sender : Address
  timestamp : U256
  transferSucceeds : Bool
  call : Call

section

variable (keccak : Bytes → Bytes32) (verify : List Bytes32 → Bytes32 → Bytes32 → Bool)

def execute (state : State) (transaction : Transaction) : Except Revert State :=
  match transaction.call with
  | .claim amount validFrom merkleProof =>
      claim keccak verify transaction.sender transaction.timestamp transaction.transferSucceeds
        amount validFrom merkleProof state
  | .claimBatch amounts validFroms merkleProofs =>
      claimBatch keccak verify transaction.sender transaction.timestamp
        transaction.transferSucceeds amounts validFroms merkleProofs state
  | .updateMerkleRoot newRoot => updateMerkleRoot transaction.sender newRoot state
  | .extendClaimPeriod newTimestamp =>
      extendClaimPeriod transaction.sender transaction.timestamp newTimestamp state
  | .pause => pause transaction.sender state
  | .unpause => unpause transaction.sender state

/-- A transaction that reverts changes nothing. -/
def transact (state : State) (transaction : Transaction) : State :=
  match execute keccak verify state transaction with
  | .ok next => next
  | .error _ => state

def run (state : State) (transactions : List Transaction) : State :=
  transactions.foldl (transact keccak verify) state

end

end ClaimableAirdrop

end AlignedLayer
