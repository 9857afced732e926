import AlignedLayer.Batcher.Submission

/-!
# The chain, as the batcher meets it

The two contracts, the `createNewTask` transactions that were broadcast, and
what became of each of them.
-/

namespace AlignedLayer

/-- The third-party functions the batcher calls. -/
structure Environment where
  keccak : Bytes → Bytes32
  merkleRoot : List VerificationDataCommitment → Bytes32
  verifySignature : SubmitProofMessage → Option Address

/-- A broadcast `createNewTask` transaction, and the batch it was sent for. -/
structure Transaction where
  id : Nat
  batchNumber : Nat
  entries : List BatchQueueEntry
  call : BatcherPaymentService.CreateNewTask
  deriving DecidableEq

structure Chain where
  paymentService : BatcherPaymentService.State
  serviceManager : AlignedLayerServiceManager.State
  pending : List Transaction
  /-- Transactions of included blocks, and whether they succeeded. -/
  included : List (Transaction × Bool)
  nextTransaction : Nat

/-- A call by a user or the owner of the payment contract. -/
inductive UserCall where
  | deposit (sender : Address) (value : Nat)
  | unlock (sender : Address) (timestamp : Nat)
  | lock (sender : Address)
  | withdraw (sender : Address) (amount timestamp : Nat)
  | setPaused (paused : Bool)
  deriving DecidableEq

namespace Chain

/-- The entries of the batches whose transaction took effect. -/
def charged (chain : Chain) : List BatchQueueEntry :=
  (chain.included.filter Prod.snd).flatMap fun transaction => transaction.1.entries

/-- A `createNewTask` of this batch took effect. -/
def isMined (chain : Chain) (batchNumber : Nat) : Bool :=
  chain.included.any fun transaction =>
    transaction.2 && transaction.1.batchNumber = batchNumber

def isPending (chain : Chain) (batchNumber : Nat) : Bool :=
  chain.pending.any fun transaction => transaction.batchNumber = batchNumber

/-- The outcome of the call on the current state, also for an `eth_call`. -/
def createNewTask (environment : Environment) (config : Config) (blockNumber : Nat)
    (call : BatcherPaymentService.CreateNewTask) (chain : Chain) :
    Except Revert (BatcherPaymentService.State × AlignedLayerServiceManager.State) :=
  BatcherPaymentService.createNewTask environment.keccak blockNumber config.batcherSigner call
    chain.paymentService chain.serviceManager

def broadcast (batchNumber : Nat) (entries : List BatchQueueEntry)
    (call : BatcherPaymentService.CreateNewTask) (chain : Chain) : Chain :=
  { chain with
    pending := chain.pending ++ [⟨chain.nextTransaction, batchNumber, entries, call⟩]
    nextTransaction := chain.nextTransaction + 1 }

/-- A pending transaction is included in a block and executed. -/
def mine (environment : Environment) (config : Config) (id blockNumber : Nat)
    (chain : Chain) : Option Chain :=
  match chain.pending.find? fun transaction => transaction.id = id with
  | none => none
  | some transaction =>
      let pending := chain.pending.filter fun other => other.id ≠ id
      match chain.createNewTask environment config blockNumber transaction.call with
      | .ok (paymentService, serviceManager) =>
          some { chain with
            paymentService := paymentService
            serviceManager := serviceManager
            pending := pending
            included := chain.included ++ [(transaction, true)] }
      | .error _ =>
          some { chain with
            pending := pending
            included := chain.included ++ [(transaction, false)] }

/-- A pending transaction is replaced, or forgotten by every node. -/
def drop (id : Nat) (chain : Chain) : Chain :=
  { chain with pending := chain.pending.filter fun transaction => transaction.id ≠ id }

def userCall (call : UserCall) (chain : Chain) : Option Chain :=
  let result :=
    match call with
    | .deposit sender value =>
        BatcherPaymentService.receive sender value chain.paymentService
    | .unlock sender timestamp =>
        BatcherPaymentService.unlock sender timestamp chain.paymentService
    | .lock sender => BatcherPaymentService.lock sender chain.paymentService
    | .withdraw sender amount timestamp =>
        BatcherPaymentService.withdraw sender amount timestamp chain.paymentService
    | .setPaused paused => .ok { chain.paymentService with paused := paused }
  match result with
  | .ok paymentService => some { chain with paymentService := paymentService }
  | .error _ => none

def userBalance (chain : Chain) (address : Address) : Nat :=
  BatcherPaymentService.userBalances chain.paymentService address

def userNonce (chain : Chain) (address : Address) : Nat :=
  BatcherPaymentService.userNonces chain.paymentService address

/-- `user_unlock_block != 0`. -/
def userIsUnlocked (chain : Chain) (address : Address) : Bool :=
  BatcherPaymentService.userUnlockBlock chain.paymentService address ≠ 0

end Chain

end AlignedLayer
