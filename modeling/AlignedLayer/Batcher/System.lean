import AlignedLayer.Batcher.Shared
import AlignedLayer.Batcher.ZkUtils
import AlignedLayer.Library.Machine

/-!
# The batcher as a machine

Every task advances in steps between two points where it waits: for a lock,
for an answer of an RPC endpoint, or for its turn.  A section of the source
that holds the lock of the queue is one step, because no other task can read
or write the queue meanwhile.  Everything the environment decides (answers,
iteration orders, which task runs next, what becomes of a transaction) is
part of the label.

Where a section waits for a lock that its own task holds, the step goes on as
if the lock had been free: the machine has every behaviour of the batcher and
these continuations in addition.
-/

namespace AlignedLayer

/-- What a message handler works on once the message has been validated. -/
structure Request where
  addr : Address
  noncedVerificationData : NoncedVerificationData
  signature : Signature
  wsConnSink : WsMessageSink

/-- The next point of `handle_submit_proof_msg` a handler has to pass. -/
inductive Phase where
  | checkLocked
  | checkUser
  | fetchNonce
  | insertUser (ethereumUserNonce : Nat)
  | getUser
  | lockUser (userStateRef : Ref)
  | readBalance (userStateRef : Ref)
  | verifyProof (userStateRef : Ref) (userBalance : Nat)
  | enqueue (userStateRef : Ref) (userBalance : Nat)
  | replace (userStateRef : Ref) (userBalance : Nat)
  deriving DecidableEq

/-- Who asked for a flush. -/
inductive FlushOrigin where
  | disabledVerifiers
  | insufficientBalance
  deriving DecidableEq

/-- A flush holds the lock of the queue from `started` to its end. -/
inductive FlushStage where
  | started
  | fetched (nonpayingNonce : Nat)
  | cleared (nonpayingNonce : Nat)
  deriving DecidableEq

/-- Where the task that polls for unlocked balances stands. -/
inductive Polling where
  | idle
  | hasProofs (address : Address)
  | unlocked (address : Address)
  deriving DecidableEq

structure System where
  shared : Shared
  handlers : TaskId → Option (Request × Phase)
  locks : Ref → Option TaskId
  flush : Option (FlushOrigin × FlushStage)
  /-- `disabled_verifiers` is locked by a block task that has to flush. -/
  flushRequested : Bool
  polling : Polling
  disabledVerifiers : Nat
  currentMinMaxFee : Nat
  lastUploadedBatchBlock : Nat
  /-- History: the answers to messages that were not accepted. -/
  replies : List (WsMessageSink × SubmitProofResponseMessage)

/-- The outcome of sending a transaction through one endpoint.  A node may
have broadcast a transaction although its answer is an error. -/
inductive SendAnswer where
  | accepted
  | reverted (blockNumber : Nat)
  | failed (broadcast : Bool)
  deriving DecidableEq

inductive Label where
  | receive (task : TaskId) (message : SubmitProofMessage) (sink : WsMessageSink)
  | checkLocked (task : TaskId) (answered : Bool)
  | checkUser (task : TaskId)
  | fetchNonce (task : TaskId) (answered : Bool)
  | insertUser (task : TaskId)
  | getUser (task : TaskId)
  | lockUser (task : TaskId)
  | readBalance (task : TaskId) (answered : Bool)
  | verifyProof (task : TaskId) (verifier : VerifierCall → Bool)
  | enqueue (task : TaskId) (layout : QueueLayout)
  | replace (task : TaskId) (verifier : VerifierCall → Bool)
  | timeout (task : TaskId)
  | newBlock (gasPrice : Nat)
  | setDisabledVerifiers (value : Nat)
  | extract (layout : QueueLayout) (gasPrice blockNumber : Nat)
  | finalize
  | failSubmission
  | simulate (answered : Bool) (blockNumber : Nat)
  | send (answer : SendAnswer)
  | sendFallback (answer : SendAnswer)
  | receipt
  | giveUpWaiting
  | endCancel
  | updateUser (layout : QueueLayout) (address : Address)
  | cleanupUser (layout : QueueLayout) (address : Address)
  | skipCleanup
  | endUpdates
  | respond (serializationFails : Nat → Bool)
  | restore (layout : QueueLayout)
  | startFlush (origin : FlushOrigin)
  | fetchNonpayingNonce (answered : Bool)
  | clearQueue
  | insertNonpaying
  | pollProofs (address : Address)
  | pollBalance (answered : Bool)
  | stopPolling
  | removeUserProofs
  | mine (transaction blockNumber : Nat)
  | dropTransaction (transaction : Nat)
  | userCall (call : UserCall)

namespace System

/-! ## Tasks and their locks -/

/-- The task ends, and its guards are dropped. -/
def finish (task : TaskId) (system : System) : System :=
  { system with
    handlers := Function.update system.handlers task none
    locks := fun ref => if system.locks ref = some task then none else system.locks ref }

def goto (task : TaskId) (request : Request) (phase : Phase) (system : System) : System :=
  { system with
    handlers := Function.update system.handlers task (some (request, phase)) }

def reply (sink : WsMessageSink) (message : SubmitProofResponseMessage) (system : System) :
    System :=
  { system with replies := system.replies ++ [(sink, message)] }

/-- Answers the client and ends the handler. -/
def reject (task : TaskId) (request : Request) (message : SubmitProofResponseMessage)
    (system : System) : System :=
  (system.reply request.wsConnSink message).finish task

/-- A step of the machine that only touches the shared data. -/
def withShared (system : System) (shared : Shared) : System :=
  { system with shared := shared }

end System

section Steps

variable (environment : Environment) (config : Config)

/-! ## Message handlers -/

/-- The checks on a message that need no shared data, in the order of the
source, and the address and data the handler goes on with. -/
def validateMessage (message : SubmitProofMessage) :
    Except SubmitProofResponseMessage (Address × NoncedVerificationData) :=
  let data := message.verificationData
  if data.chainId ≠ config.chainId then
    .error .invalidChainId
  else if data.paymentServiceAddr ≠ config.paymentServiceAddr then
    .error (.invalidPaymentServiceAddress data.paymentServiceAddr config.paymentServiceAddr)
  else if data.cborSizeUpperBound > config.maxProofSize then
    .error .proofTooLarge
  else
    match environment.verifySignature message with
    | none => .error .invalidSignature
    | some address =>
        match config.nonPayingConfig with
        | none => .ok (address, data)
        | some nonPaying =>
            if nonPaying.address = address then
              .ok (nonPaying.replacement, { data with maxFee := defaultMaxFeePerProof * 100 })
            else
              .ok (address, data)

namespace System

def receive (task : TaskId) (message : SubmitProofMessage) (sink : WsMessageSink)
    (system : System) : Option System :=
  if (system.handlers task).isSome then
    none
  else
    match validateMessage environment config message with
    | .error error => some (system.reply sink error)
    | .ok (addr, data) =>
        if data.maxFee < system.currentMinMaxFee then
          some (system.reply sink .underpricedProof)
        else
          some (system.goto task ⟨addr, data, message.signature, sink⟩ .checkLocked)

/-- `msg_user_balance_is_locked`: without an answer the balance counts as
locked. -/
def checkLocked (task : TaskId) (answered : Bool) (system : System) : Option System :=
  match system.handlers task with
  | some (request, .checkLocked) =>
      if answered && system.shared.chain.userIsUnlocked request.addr then
        some (system.reject task request (.insufficientBalance request.addr))
      else
        some (system.goto task request .checkUser)
  | _ => none

def checkUser (task : TaskId) (system : System) : Option System :=
  match system.handlers task with
  | some (request, .checkUser) =>
      if (system.shared.userStates request.addr).isSome then
        some (system.goto task request .getUser)
      else
        some (system.goto task request .fetchNonce)
  | _ => none

def fetchNonce (task : TaskId) (answered : Bool) (system : System) : Option System :=
  match system.handlers task with
  | some (request, .fetchNonce) =>
      if answered then
        some (system.goto task request
          (.insertUser (system.shared.chain.userNonce request.addr)))
      else
        some (system.reject task request .ethRpcError)
  | _ => none

/-- The new user state is inserted whether or not there is one by now. -/
def insertUser (task : TaskId) (system : System) : Option System :=
  match system.handlers task with
  | some (request, .insertUser nonce) =>
      some ((system.withShared (system.shared.createUser request.addr nonce)).goto
        task request .getUser)
  | _ => none

def getUser (task : TaskId) (system : System) : Option System :=
  match system.handlers task with
  | some (request, .getUser) =>
      match system.shared.userStates request.addr with
      | none => some (system.reject task request .addToBatchError)
      | some ref => some (system.goto task request (.lockUser ref))
  | _ => none

def lockUser (task : TaskId) (system : System) : Option System :=
  match system.handlers task with
  | some (request, .lockUser ref) =>
      if system.locks ref = none then
        some ({ system with locks := Function.update system.locks ref (some task) }.goto
          task request (.readBalance ref))
      else
        none
  | _ => none

/-- The validations against the user state, whose lock is held. -/
def readBalance (task : TaskId) (answered : Bool) (system : System) : Option System :=
  match system.handlers task with
  | some (request, .readBalance ref) =>
      if answered then
        let userState := system.shared.cells ref
        let balance := system.shared.chain.userBalance request.addr
        let data := request.noncedVerificationData
        let required := userState.totalFeesInQueue + data.maxFee
        if required > u256Max then
          some (system.finish task)
        else if balance < required then
          some (system.reject task request (.insufficientBalance request.addr))
        else if userState.nonce < data.nonce then
          some (system.reject task request .invalidNonce)
        else if userState.nonce > data.nonce then
          some (system.goto task request (.replace ref balance))
        else if data.maxFee > userState.lastMaxFeeLimit then
          some (system.reject task request .invalidMaxFee)
        else
          some (system.goto task request (.verifyProof ref balance))
      else
        some (system.reject task request .ethRpcError)
  | _ => none

/-- `verify_proof_if_enabled`: the reason to refuse the proof, if any. -/
def proofRefusal (verifier : VerifierCall → Bool) (data : VerificationData)
    (system : System) : Option ProofInvalidReason :=
  if !config.preVerificationIsEnabled then
    none
  else if ZkUtils.isVerifierDisabled system.disabledVerifiers data.provingSystem then
    some (.disabledVerifier data.provingSystem)
  else if !ZkUtils.verifyInternal verifier data then
    some .rejectedProof
  else
    none

def verifyProof (task : TaskId) (verifier : VerifierCall → Bool) (system : System) :
    Option System :=
  match system.handlers task with
  | some (request, .verifyProof ref balance) =>
      if config.preVerificationIsEnabled && system.flushRequested then
        none
      else
        match proofRefusal config verifier request.noncedVerificationData.verificationData
            system with
        | some reason => some (system.reject task request (.invalidProof reason))
        | none => some (system.goto task request (.enqueue ref balance))
  | _ => none

/-- `BatchQueueEntry::new` for the data of a request. -/
def newEntry (request : Request) : BatchQueueEntry :=
  { noncedVerificationData := request.noncedVerificationData
    verificationDataCommitment := .ofVerificationData environment.keccak
      request.noncedVerificationData.verificationData
    messagingSink := some request.wsConnSink
    signature := request.signature
    sender := request.addr }

/-- From the batch lock to the end of `handle_submit_proof_msg`.  The user
state is written after the batch lock is released, but its own lock is held
until then, so nobody sees the state in between. -/
def enqueue (task : TaskId) (layout : QueueLayout) (system : System) : Option System :=
  match system.handlers task with
  | some (request, .enqueue ref _) =>
      if system.flush.isSome then
        none
      else
        let entry := newEntry environment request
        if BatchState.isQueueFull config.maxQueueSize system.shared.batchQueue then
          match system.shared.evictionTarget layout system.locks entry.maxFee with
          | none => some (system.reject task request .underpricedProof)
          | some (evictedRef, target) =>
              match system.shared.evict layout evictedRef target with
              | .error shared => some ((system.withShared shared).finish task)
              | .ok shared =>
                  some ((system.withShared (shared.acceptEntry ref entry)).finish task)
        else
          some ((system.withShared (system.shared.acceptEntry ref entry)).finish task)
  | _ => none

/-- The entry that replaces `original`. -/
def replacementEntry (request : Request) (original : BatchQueueEntry) : BatchQueueEntry :=
  { original with
    signature := request.signature
    verificationDataCommitment := .ofVerificationData environment.keccak
      request.noncedVerificationData.verificationData
    noncedVerificationData := request.noncedVerificationData
    messagingSink := some request.wsConnSink }

/-- `handle_replacement_message`, from the batch lock on.  The old connection
is told before the replacement is checked against the queue. -/
def replace (task : TaskId) (verifier : VerifierCall → Bool) (system : System) :
    Option System :=
  match system.handlers task with
  | some (request, .replace ref _) =>
      if system.flush.isSome || (config.preVerificationIsEnabled && system.flushRequested) then
        none
      else
        let data := request.noncedVerificationData
        match BatchState.getEntry system.shared.batchQueue request.addr data.nonce with
        | none => some (system.reject task request .invalidNonce)
        | some original =>
            let bumped := original.maxFee * config.minBumpPercentage
            let minBump := original.maxFee + bumped / 100
            if bumped > u256Max ∨ minBump > u256Max then
              some (system.finish task)
            else if data.maxFee < minBump then
              some (system.reject task request .underpricedProof)
            else
              match proofRefusal config verifier data.verificationData system with
              | some reason => some (system.reject task request (.invalidProof reason))
              | none =>
                  let replacement := replacementEntry environment request original
                  let told := system.shared.notify [original] .proofReplaced
                  if BatchState.replacementEntryIsValid system.shared.batchQueue replacement then
                    some ((system.withShared
                      (told.replaceEntry ref original replacement)).finish task)
                  else
                    some ((system.withShared told).reject task request
                      .invalidReplacementMessage)
  | _ => none

/-- A lock was not available in time. -/
def timeout (task : TaskId) (system : System) : Option System :=
  match system.handlers task with
  | some (request, .checkUser) => some (system.reject task request .serverBusy)
  | some (request, .insertUser _) => some (system.reject task request .serverBusy)
  | some (request, .getUser) => some (system.reject task request .serverBusy)
  | some (request, .lockUser _) => some (system.reject task request .serverBusy)
  | some (request, .enqueue _ _) => some (system.reject task request .serverBusy)
  | some (request, .replace _ _) => some (system.reject task request .serverBusy)
  | _ => none

/-! ## New blocks -/

def newBlock (gasPrice : Nat) (system : System) : Option System :=
  some { system with
    currentMinMaxFee :=
      calculateFeePerProofWithGasPrice config.amountOfProofsForMinMaxFee gasPrice }

def setDisabledVerifiers (value : Nat) (system : System) : Option System :=
  if system.flushRequested then
    none
  else if value = system.disabledVerifiers then
    some system
  else
    some { system with disabledVerifiers := value, flushRequested := true }

def extract (layout : QueueLayout) (gasPrice blockNumber : Nat) (system : System) :
    Option System :=
  if system.flush.isSome || system.shared.batch.isSome then
    none
  else if system.shared.batchQueue.len < 1 then
    some system
  else if blockNumber < system.lastUploadedBatchBlock + config.minBlockInterval then
    some system
  else
    let modifiedGasPrice := gasPrice * gasPricePercentageMultiplier / percentageDivider
    some (system.withShared
      (system.shared.extract environment config layout modifiedGasPrice blockNumber))

/-- `finalize_batch` up to the upload. -/
def finalize (system : System) : Option System :=
  match system.shared.batch with
  | some (batch, .finalizing) =>
      some { system.withShared (system.shared.enter batch .uploading) with
        lastUploadedBatchBlock := batch.blockNumber }
  | _ => none

/-- The serialization, the Merkle tree or the upload fails. -/
def failSubmission (system : System) : Option System :=
  match system.shared.batch with
  | some (batch, .finalizing) => some (system.withShared (system.shared.enter batch .failed))
  | some (batch, .uploading) => some (system.withShared (system.shared.enter batch .failed))
  | _ => none

def simulate (answered : Bool) (blockNumber : Nat) (system : System) : Option System :=
  match system.shared.batch with
  | some (batch, .uploading) =>
      if answered then
        match system.shared.chain.createNewTask environment config blockNumber batch.call with
        | .ok _ => some (system.withShared (system.shared.enter batch (.sending 0)))
        | .error error =>
            some (system.withShared (system.shared.enter batch (Shared.reverted error)))
      else
        some (system.withShared (system.shared.enter batch .failed))
  | _ => none

/-- The number of times a send is retried. -/
def ethereumCallMaxRetries : Nat := 5

/-- What an endpoint's answer to a send leads to; `next` is the stage after an
error that is not a revert. -/
def afterSend (batch : InFlight) (next : Stage) (answer : SendAnswer) (system : System) :
    Option System :=
  match answer with
  | .accepted =>
      some (system.withShared ((system.shared.broadcast batch).enter batch
        (.waiting system.shared.chain.nextTransaction)))
  | .reverted blockNumber =>
      match system.shared.chain.createNewTask environment config blockNumber batch.call with
      | .ok _ => none
      | .error error =>
          some (system.withShared (system.shared.enter batch (Shared.reverted error)))
  | .failed broadcast =>
      let shared := if broadcast then system.shared.broadcast batch else system.shared
      some (system.withShared (shared.enter batch next))

def send (answer : SendAnswer) (system : System) : Option System :=
  match system.shared.batch with
  | some (batch, .sending attempt) =>
      system.afterSend environment config batch (.sendingFallback attempt) answer
  | _ => none

def sendFallback (answer : SendAnswer) (system : System) : Option System :=
  match system.shared.batch with
  | some (batch, .sendingFallback attempt) =>
      let next := if attempt < ethereumCallMaxRetries then .sending (attempt + 1) else .failed
      system.afterSend environment config batch next answer
  | _ => none

/-- The transaction was included in a block, whether it succeeded or not. -/
def receipt (system : System) : Option System :=
  match system.shared.batch with
  | some (batch, .waiting id) =>
      if system.shared.chain.included.any fun transaction => transaction.1.id = id then
        some (system.withShared
          (system.shared.enter batch (.updatingUsers (sendersOf batch.entries))))
      else
        none
  | _ => none

/-- `ReceiptNotFoundError`. -/
def giveUpWaiting (system : System) : Option System :=
  match system.shared.batch with
  | some (batch, .waiting _) => some (system.withShared (system.shared.enter batch .cancelling))
  | _ => none

/-- `cancel_create_new_task_tx` returns.  Its attempts replace the pending
transaction, lose the race to it, or fail; it returns nothing. -/
def endCancel (system : System) : Option System :=
  match system.shared.batch with
  | some (batch, .cancelling) => some (system.withShared (system.shared.enter batch .failed))
  | _ => none

/-- The lock of the user's current state is free. -/
def userIsFree (address : Address) (system : System) : Bool :=
  match system.shared.userStates address with
  | none => true
  | some ref => system.locks ref = none

def updateUser (layout : QueueLayout) (address : Address) (system : System) : Option System :=
  if system.flush.isSome || !system.userIsFree address then
    none
  else
    match system.shared.batch with
    | some (batch, .updatingUsers users) =>
        if address ∈ users then
          some (system.withShared ((system.shared.updateUser layout address).enter batch
            (.updatingUsers (users.erase address))))
        else
          none
    | some (batch, .restored users) =>
        if address ∈ users then
          some (system.withShared ((system.shared.updateUser layout address).enter batch
            (.restored (users.erase address))))
        else
          none
    | _ => none

def cleanupUser (layout : QueueLayout) (address : Address) (system : System) :
    Option System :=
  match system.shared.batch with
  | some (batch, .cleaningUsers users) =>
      if system.flush.isNone && address ∈ users then
        let shared :=
          if system.userIsFree address then system.shared.cleanupUser layout address
          else system.shared
        some (system.withShared (shared.enter batch (.cleaningUsers (users.erase address))))
      else
        none
  | _ => none

/-- The lock of the queue was taken when the cleanup tried it. -/
def skipCleanup (system : System) : Option System :=
  match system.shared.batch with
  | some (batch, .cleaningUsers _) =>
      some (system.withShared (system.shared.enter batch .responding))
  | _ => none

/-- A loop over users has come to its end. -/
def endUpdates (system : System) : Option System :=
  match system.shared.batch with
  | some (batch, .updatingUsers []) =>
      some (system.withShared
        (system.shared.enter batch (.cleaningUsers (sendersOf batch.entries))))
  | some (batch, .cleaningUsers []) =>
      some (system.withShared (system.shared.enter batch .responding))
  | some (_, .restored []) => some (system.withShared { system.shared with batch := none })
  | _ => none

def respond (serializationFails : Nat → Bool) (system : System) : Option System :=
  match system.shared.batch with
  | some (batch, .responding) =>
      some (system.withShared (system.shared.respond serializationFails batch))
  | _ => none

def restore (layout : QueueLayout) (system : System) : Option System :=
  match system.shared.batch with
  | some (batch, .failed) =>
      if system.flush.isSome then
        none
      else
        (system.shared.restore layout config.maxQueueSize batch).map system.withShared
  | _ => none

/-! ## Flush and removal -/

def startFlush (origin : FlushOrigin) (system : System) : Option System :=
  if system.flush.isSome then
    none
  else
    match origin with
    | .disabledVerifiers =>
        if system.flushRequested then
          some { system with flush := some (.disabledVerifiers, .started) }
        else
          none
    | .insufficientBalance =>
        match system.shared.batch with
        | some (_, .insufficient _) =>
            some { system with flush := some (.insufficientBalance, .started) }
        | _ => none

/-- The flush returns to the code that asked for it. -/
def finishFlush (origin : FlushOrigin) (system : System) : System :=
  match origin with
  | .disabledVerifiers => { system with flush := none, flushRequested := false }
  | .insufficientBalance =>
      match system.shared.batch with
      | none => { system with flush := none }
      | some (batch, _) =>
          { system.withShared (system.shared.resetBatch batch) with flush := none }

def fetchNonpayingNonce (answered : Bool) (system : System) : Option System :=
  match system.flush, config.nonpayingReplacementAddr with
  | some (origin, .started), some address =>
      if answered then
        some { system with
          flush := some (origin, .fetched (system.shared.chain.userNonce address)) }
      else
        some ((system.withShared system.shared.flush).finishFlush origin)
  | _, _ => none

def clearQueue (system : System) : Option System :=
  match system.flush, config.nonpayingReplacementAddr with
  | some (origin, .started), none =>
      some ((system.withShared system.shared.flush).finishFlush origin)
  | some (origin, .fetched nonce), some _ =>
      some { system.withShared system.shared.flush with flush := some (origin, .cleared nonce) }
  | _, _ => none

def insertNonpaying (system : System) : Option System :=
  match system.flush, config.nonpayingReplacementAddr with
  | some (origin, .cleared nonce), some address =>
      some ((system.withShared (system.shared.createUser address nonce)).finishFlush origin)
  | _, _ => none

/-- `user_has_proofs_in_queue`. -/
def pollProofs (address : Address) (system : System) : Option System :=
  match system.polling, system.shared.userStates address with
  | .idle, some ref =>
      if system.locks ref = none ∧ (system.shared.cells ref).proofsInBatch > 0 then
        some { system with polling := .hasProofs address }
      else
        some system
  | .idle, none => some system
  | _, _ => none

/-- `user_balance_is_unlocked`. -/
def pollBalance (answered : Bool) (system : System) : Option System :=
  match system.polling with
  | .hasProofs address =>
      if answered && system.shared.chain.userIsUnlocked address then
        some { system with polling := .unlocked address }
      else
        some { system with polling := .idle }
  | _ => none

/-- The lock of the queue was not available in time. -/
def stopPolling (system : System) : Option System :=
  match system.polling with
  | .unlocked _ => some { system with polling := .idle }
  | _ => none

def removeUserProofs (system : System) : Option System :=
  match system.polling with
  | .unlocked address =>
      if system.flush.isSome then
        none
      else
        some { system.withShared (system.shared.removeUserProofs address) with
          polling := .idle }
  | _ => none

/-! ## Chain -/

def withChain (system : System) (chain : Chain) : System :=
  system.withShared { system.shared with chain := chain }

def mine (transaction blockNumber : Nat) (system : System) : Option System :=
  (system.shared.chain.mine environment config transaction blockNumber).map system.withChain

def dropTransaction (transaction : Nat) (system : System) : Option System :=
  some (system.withChain (system.shared.chain.drop transaction))

def userCall (call : UserCall) (system : System) : Option System :=
  (system.shared.chain.userCall call).map system.withChain

end System

/-- The batcher, its clients, the block and polling tasks, and the chain. -/
def batcher : Machine System Label where
  step system label :=
    match label with
    | .receive task message sink => system.receive environment config task message sink
    | .checkLocked task answered => system.checkLocked task answered
    | .checkUser task => system.checkUser task
    | .fetchNonce task answered => system.fetchNonce task answered
    | .insertUser task => system.insertUser task
    | .getUser task => system.getUser task
    | .lockUser task => system.lockUser task
    | .readBalance task answered => system.readBalance task answered
    | .verifyProof task verifier => system.verifyProof config task verifier
    | .enqueue task layout => system.enqueue environment config task layout
    | .replace task verifier => system.replace environment config task verifier
    | .timeout task => system.timeout task
    | .newBlock gasPrice => system.newBlock config gasPrice
    | .setDisabledVerifiers value => system.setDisabledVerifiers value
    | .extract layout gasPrice blockNumber =>
        system.extract environment config layout gasPrice blockNumber
    | .finalize => system.finalize
    | .failSubmission => system.failSubmission
    | .simulate answered blockNumber =>
        system.simulate environment config answered blockNumber
    | .send answer => system.send environment config answer
    | .sendFallback answer => system.sendFallback environment config answer
    | .receipt => system.receipt
    | .giveUpWaiting => system.giveUpWaiting
    | .endCancel => system.endCancel
    | .updateUser layout address => system.updateUser layout address
    | .cleanupUser layout address => system.cleanupUser layout address
    | .skipCleanup => system.skipCleanup
    | .endUpdates => system.endUpdates
    | .respond serializationFails => system.respond serializationFails
    | .restore layout => system.restore config layout
    | .startFlush origin => system.startFlush origin
    | .fetchNonpayingNonce answered => system.fetchNonpayingNonce config answered
    | .clearQueue => system.clearQueue config
    | .insertNonpaying => system.insertNonpaying config
    | .pollProofs address => system.pollProofs address
    | .pollBalance answered => system.pollBalance answered
    | .stopPolling => system.stopPolling
    | .removeUserProofs => system.removeUserProofs
    | .mine transaction blockNumber => system.mine environment config transaction blockNumber
    | .dropTransaction transaction => system.dropTransaction transaction
    | .userCall call => system.userCall call

end Steps

/-- Nothing queued, nothing in flight, no user. -/
def Shared.empty (chain : Chain) : Shared :=
  { batchQueue := PriorityQueue.empty
    userStates := fun _ => none
    cells := fun _ => UserState.new 0
    nextRef := 0
    batch := none
    batches := 0
    chain := chain
    accepted := []
    notices := []
    restored := [] }

/-- `Batcher::new` loads the user that pays for non-paying addresses. -/
def Shared.initial (config : Config) (chain : Chain) : Shared :=
  match config.nonpayingReplacementAddr with
  | none => .empty chain
  | some address => (Shared.empty chain).createUser address (chain.userNonce address)

def initialSystem (config : Config) (chain : Chain) (disabledVerifiers : Nat)
    (lastUploadedBatchBlock : Nat) : System :=
  { shared := .initial config chain
    handlers := fun _ => none
    locks := fun _ => none
    flush := none
    flushRequested := false
    polling := .idle
    disabledVerifiers := disabledVerifiers
    currentMinMaxFee := 0
    lastUploadedBatchBlock := lastUploadedBatchBlock
    replies := [] }

/-! ## A small instance -/

namespace Sample

/-- Functions that tell the few messages of a sample apart; the signer is
written into the signature. -/
def environment : Environment :=
  { keccak := fun message =>
      Vector.replicate 32 (message.foldl (fun digest byte => digest + byte) 1)
    merkleRoot := fun leaves => Vector.replicate 32 (UInt8.ofNat leaves.length)
    verifySignature := fun message => some (BitVec.ofNat 160 message.signature.r) }

/-- Every account has deposited the same balance. -/
def chain (balance : Nat) : Chain :=
  { paymentService :=
      { self := 7
        ethBalance := 10 * balance
        alignedLayerServiceManager := 8
        batcherWallet := 9
        paused := false
        userData := fun _ => { balance := balance, unlockBlockTime := 0, nonce := 0 } }
    serviceManager :=
      { batchesState := fun _ =>
          { taskCreatedBlock := 0, responded := false, respondToTaskFeeLimit := 0 }
        batchersBalances := fun _ => 0
        paused := false }
    pending := []
    included := []
    nextTransaction := 0 }

def system (maxQueueSize balance : Nat) : System :=
  initialSystem (config maxQueueSize) (chain balance) 0 0

def layout : QueueLayout := Layout.insertion _

def message (signer nonce maxFee : Nat) : SubmitProofMessage :=
  { verificationData := noncedVerificationData nonce maxFee
    signature := ⟨signer, 0, 0⟩ }

/-- A message is handled up to the lock of its user's state. -/
def findUser (task signer nonce maxFee : Nat) : List Label :=
  [.receive task (message signer nonce maxFee) signer, .checkLocked task true, .checkUser task,
    .getUser task, .lockUser task]

/-- The same for a user without a user state. -/
def createUser (task signer nonce maxFee : Nat) : List Label :=
  [.receive task (message signer nonce maxFee) signer, .checkLocked task true, .checkUser task,
    .fetchNonce task true, .insertUser task, .getUser task, .lockUser task]

/-- A handler that holds the lock of its user's state adds its proof. -/
def addProof (task : TaskId) : List Label :=
  [.readBalance task true, .verifyProof task fun _ => true, .enqueue task layout]

def firstProof (task signer nonce maxFee : Nat) : List Label :=
  createUser task signer nonce maxFee ++ addProof task

def nextProof (task signer nonce maxFee : Nat) : List Label :=
  findUser task signer nonce maxFee ++ addProof task

/-- A batch is extracted and its transaction accepted by an endpoint. -/
def sendBatch : List Label :=
  [.extract layout 1 1, .finalize, .simulate true 1, .send .accepted]

/-- The transaction is included, and the clients are answered. -/
def closeBatch (transaction : Nat) (users : List Address) : List Label :=
  [.mine transaction 1, .receipt] ++ users.map (Label.updateUser layout) ++
    [.endUpdates, .skipCleanup, .respond fun _ => false]

end Sample

end AlignedLayer
