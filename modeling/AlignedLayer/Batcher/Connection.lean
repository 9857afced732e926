import AlignedLayer.Batcher.Flushing
import AlignedLayer.Batcher.Queued
import AlignedLayer.Sdk.Messaging

/-!
# What goes out on a connection

The responses of `send_batch_inclusion_data_responses` in full, and everything
a step of the batcher sends on one connection.  `Delivery` says what a step
does to the accepted proofs on their way to an answer, and whom it tells.
-/

namespace AlignedLayer

/-! ## Responses -/

/-- The message on the wire.  Inclusion data are sent in full, by
`sendBatchInclusionDataResponses`. -/
def SubmitProofResponseMessage.onWire :
    SubmitProofResponseMessage → Option Sdk.SubmitProofResponseMessage
  | .batchInclusionData _ _ => none
  | .invalidProof .rejectedProof => some (.invalidProof .rejectedProof)
  | .invalidProof (.disabledVerifier system) => some (.invalidProof (.disabledVerifier system))
  | .batchReset => some .batchReset
  | .invalidNonce => some .invalidNonce
  | .invalidSignature => some .invalidSignature
  | .proofTooLarge => some .proofTooLarge
  | .invalidMaxFee => some .invalidMaxFee
  | .insufficientBalance address => some (.insufficientBalance address)
  | .invalidChainId => some .invalidChainId
  | .invalidReplacementMessage => some .invalidReplacementMessage
  | .addToBatchError => some .addToBatchError
  | .ethRpcError => some .ethRpcError
  | .invalidPaymentServiceAddress received expected =>
      some (.invalidPaymentServiceAddress received expected)
  | .underpricedProof => some .underpricedProof
  | .serverBusy => some .serverBusy
  | .userFundsUnlocked => some .userFundsUnlocked
  | .proofReplaced => some .proofReplaced

def SubmitProofResponseMessage.isInclusion : SubmitProofResponseMessage → Bool
  | .batchInclusionData _ _ => true
  | _ => false

section Responses

variable {Payload : Type} (crate : MerkleTreeCrate VerificationDataCommitment Bytes32)
  (cbor : Sdk.CborCrate Payload)

/-- The loop of `send_batch_inclusion_data_responses`: what is sent, with the
connections, and the result.  There is none if the loop panics for want of a
path. -/
def sendResponses (batch : List VerificationDataCommitment) :
    List (Nat × BatchQueueEntry) →
      List (WsMessageSink × Payload) × Option (Except BatcherError Unit)
  | [] => ([], some (.ok ()))
  | (vdBatchIdx, entry) :: rest =>
      match BatchInclusionData.new crate vdBatchIdx batch entry.nonce with
      | none => ([], none)
      | some batchInclusionData =>
          match cbor.serializeResponse (.batchInclusionData batchInclusionData) with
          | none => ([], some (.error .serializationError))
          | some serializedResponse =>
              match entry.messagingSink with
              | none => ([], some (.error .wsSinkEmpty))
              | some wsSink =>
                  let (sent, result) := sendResponses batch rest
                  ((wsSink, serializedResponse) :: sent, result)

/-- Each sender wants to receive responses in ascending nonce order, so the
batch is gone through in reverse. -/
def sendBatchInclusionDataResponses (finalizedBatch : List BatchQueueEntry) :
    List (WsMessageSink × Payload) × Option (Except BatcherError Unit) :=
  sendResponses crate cbor (finalizedBatch.map BatchQueueEntry.verificationDataCommitment)
    (Shared.numbered finalizedBatch).reverse

/-- The steps that answer the clients of a batch. -/
def Label.isRespond : Label → Bool
  | .respond _ => true
  | _ => false

namespace System

/-- The answers to refused messages and the messages about queued proofs that
a step adds for the connection. -/
def newMessages (sink : WsMessageSink) (system next : System) :
    List SubmitProofResponseMessage :=
  ((next.replies.drop system.replies.length).filter fun reply => reply.1 = sink).map Prod.snd ++
    ((next.shared.notices.drop system.shared.notices.length).filter fun notice =>
      notice.proof.messagingSink = some sink).map Notice.message

/-- The responses a step sends on the connection. -/
def responsesOn (sink : WsMessageSink) (system : System) (label : Label) : List Payload :=
  if label.isRespond then
    match system.shared.batch with
    | some (batch, _) =>
        ((sendBatchInclusionDataResponses crate cbor batch.entries).1.filter fun response =>
          response.1 = sink).map Prod.snd
    | none => []
  else
    []

/-- Everything a step sends on the connection. -/
def sentOn (sink : WsMessageSink) (system : System) (label : Label) (next : System) :
    List Payload :=
  ((system.newMessages sink next).filterMap fun message =>
    message.onWire.bind cbor.serializeResponse) ++
    system.responsesOn crate cbor sink label

end System

end Responses

/-! ## Proofs on their way -/

theorem Stage.ne_restored_of_isOpen {stage : Stage} (isOpen : stage.isOpen = true)
    (users : List Address) : stage ≠ .restored users := by
  rintro rfl
  cases isOpen

/-- The entries whose answers go to the connection. -/
def entriesOn (sink : WsMessageSink) (entries : List BatchQueueEntry) : List BatchQueueEntry :=
  entries.filter fun entry => entry.messagingSink = some sink

@[simp] theorem mem_entriesOn {sink : WsMessageSink} {entries : List BatchQueueEntry}
    {entry : BatchQueueEntry} :
    entry ∈ entriesOn sink entries ↔ entry ∈ entries ∧ entry.messagingSink = some sink := by
  simp [entriesOn]

@[simp] theorem entriesOn_append (sink : WsMessageSink) (before after : List BatchQueueEntry) :
    entriesOn sink (before ++ after) = entriesOn sink before ++ entriesOn sink after :=
  List.filter_append before after

theorem entriesOn_reverse (sink : WsMessageSink) (entries : List BatchQueueEntry) :
    entriesOn sink entries.reverse = (entriesOn sink entries).reverse :=
  List.filter_reverse

theorem entriesOn_eq_nil {sink : WsMessageSink} {entries : List BatchQueueEntry}
    (none : ∀ entry ∈ entries, entry.messagingSink ≠ some sink) : entriesOn sink entries = [] :=
  List.filter_eq_nil_iff.mpr (by simpa using none)

namespace Shared

/-- The proofs accepted on a connection, in order. -/
def acceptedOn (sink : WsMessageSink) (shared : Shared) : List BatchQueueEntry :=
  entriesOn sink shared.accepted

/-- The proofs of the batch in flight.  Once a failed batch is restored, its
proofs are queued again. -/
def unanswered (shared : Shared) : List BatchQueueEntry :=
  match shared.batch with
  | none => []
  | some (_, .restored _) => []
  | some (batch, _) => batch.entries

/-- The proofs whose inclusion was answered, in the order of the answers. -/
def answered (shared : Shared) : List BatchQueueEntry :=
  (shared.notices.filter fun notice => notice.message.isInclusion).map Notice.proof

theorem unanswered_of_current {shared : Shared} {batch : InFlight} {stage : Stage}
    (current : shared.batch = some (batch, stage)) (kept : ∀ users, stage ≠ .restored users) :
    shared.unanswered = batch.entries := by
  rw [unanswered, current]
  cases stage with
  | restored users => exact absurd rfl (kept users)
  | _ => rfl

theorem unanswered_of_restored {shared : Shared} {batch : InFlight} {users : List Address}
    (current : shared.batch = some (batch, .restored users)) : shared.unanswered = [] := by
  rw [unanswered, current]

theorem unanswered_of_none {shared : Shared} (idle : shared.batch = none) :
    shared.unanswered = [] := by
  rw [unanswered, idle]

theorem unanswered_of_same {shared after : Shared} (same : after.batch = shared.batch) :
    after.unanswered = shared.unanswered := by
  rw [unanswered, unanswered, same]

/-- Going from one stage before the answers to another. -/
theorem unanswered_enter {shared : Shared} {batch : InFlight} {stage next : Stage}
    (current : shared.batch = some (batch, stage)) (kept : ∀ users, stage ≠ .restored users)
    (nextKept : ∀ users, next ≠ .restored users) :
    (shared.enter batch next).unanswered = shared.unanswered := by
  rw [unanswered_of_current current kept]
  exact unanswered_of_current rfl nextKept

end Shared

variable {environment : Environment} {config : Config} {system next : System} {label : Label}
  {after : Shared}

/-- The handler is about to add its proof to the queue, or to replace one. -/
inductive Adds (system : System) : Label → TaskId → Request → Prop where
  | enqueue {task : TaskId} {layout : QueueLayout} {request : Request} {ref : Ref} {balance : Nat}
      (running : system.handlers task = some (request, .enqueue ref balance)) :
      Adds system (.enqueue task layout) task request
  | replace {task : TaskId} {verifier : VerifierCall → Bool} {request : Request} {ref : Ref}
      {balance : Nat}
      (running : system.handlers task = some (request, .replace ref balance)) :
      Adds system (.replace task verifier) task request

/-- A replacement differs from a new entry in nothing. -/
theorem replacementEntry_eq {request : Request} {original : BatchQueueEntry}
    (stored : BatchState.getEntry system.shared.batchQueue request.addr
      request.noncedVerificationData.nonce = some original) :
    System.replacementEntry environment request original =
      System.newEntry environment request := by
  have sender : original.sender = request.addr :=
    congrArg Prod.fst (BatchState.getEntry_eq_some stored).2
  rw [System.newEntry, ← sender]
  rfl

variable (environment system label after)

/-- What a step other than the answers to a batch does to the accepted proofs.
A message about a proof tells that it leaves, or refuses its replacement. -/
inductive Delivery : Prop where
  | lose {told : List Notice}
      (accepted : after.accepted = system.shared.accepted)
      (notices : after.notices = system.shared.notices ++ told)
      (plain : ∀ notice ∈ told, notice.message.isInclusion = false)
      (leaves : ∀ notice ∈ told,
        (notice.proof ∈ system.shared.batchQueue.items ∧
          notice.proof ∉ after.batchQueue.items) ∨
        (notice.proof ∈ system.shared.unanswered ∧ after.unanswered = []))
      (queued : ∀ entry ∈ after.batchQueue.items, entry ∈ system.shared.batchQueue.items)
      (unanswered : after.unanswered = system.shared.unanswered ∨ after.unanswered = [])
  | accept {task : TaskId} {request : Request} {told : List Notice}
      (adds : Adds system label task request)
      (accepted : after.accepted =
        system.shared.accepted ++ [System.newEntry environment request])
      (notices : after.notices = system.shared.notices ++ told)
      (plain : ∀ notice ∈ told, notice.message.isInclusion = false)
      (leaves : ∀ notice ∈ told, notice.proof ∈ system.shared.batchQueue.items ∧
        (notice.proof ∈ after.batchQueue.items →
          notice.proof = System.newEntry environment request))
      (queued : ∀ entry ∈ after.batchQueue.items,
        entry = System.newEntry environment request ∨ entry ∈ system.shared.batchQueue.items)
      (unanswered : after.unanswered = system.shared.unanswered)
  | refuse {task : TaskId} {request : Request} {original : BatchQueueEntry}
      (adds : Adds system label task request)
      (stored : original ∈ system.shared.batchQueue.items)
      (same : original.key = (request.addr, request.noncedVerificationData.nonce))
      (refused : after = system.shared.notify [original] .proofReplaced)
  | extract {limits : ExtractionLimits} {batch : List BatchQueueEntry}
      (idle : system.shared.batch = none)
      (extracted : Nonempty (Extracted limits system.shared.batchQueue batch after.batchQueue))
      (accepted : after.accepted = system.shared.accepted)
      (notices : after.notices = system.shared.notices)
      (unanswered : after.unanswered = batch)
  | restore
      (accepted : after.accepted = system.shared.accepted)
      (notices : after.notices = system.shared.notices)
      (queued : ∀ entry ∈ after.batchQueue.items,
        entry ∈ system.shared.unanswered ∨ entry ∈ system.shared.batchQueue.items)
      (unanswered : after.unanswered = [])

variable {environment system label after}

namespace Delivery

/-- A step that tells nobody anything and queues nothing. -/
theorem of_quiet (accepted : after.accepted = system.shared.accepted)
    (notices : after.notices = system.shared.notices)
    (queued : ∀ entry ∈ after.batchQueue.items, entry ∈ system.shared.batchQueue.items)
    (unanswered : after.unanswered = system.shared.unanswered) :
    Delivery environment system label after := by
  refine @Delivery.lose _ _ _ _ [] accepted ?_ ?_ ?_ queued (.inl unanswered)
  · rw [notices, List.append_nil]
  · simp
  · simp

theorem of_same (accepted : after.accepted = system.shared.accepted)
    (notices : after.notices = system.shared.notices)
    (queue : after.batchQueue = system.shared.batchQueue)
    (unanswered : after.unanswered = system.shared.unanswered) :
    Delivery environment system label after := by
  apply of_quiet accepted notices
  · rw [queue]
    exact fun _ member => member
  · exact unanswered

end Delivery

theorem Shared.notify_notices (entries : List BatchQueueEntry)
    (message : SubmitProofResponseMessage) (shared : Shared) :
    ∃ told, (shared.notify entries message).notices = shared.notices ++ told ∧
      ∀ notice ∈ told, notice.proof ∈ entries ∧ notice.message = message := by
  refine ⟨_, rfl, ?_⟩
  intro notice member
  obtain ⟨entry, entryMember, rfl⟩ := List.mem_map.mp member
  exact ⟨(List.mem_filter.mp entryMember).1, rfl⟩

/-- The flush after a user could not pay tells the users of the batch too. -/
private theorem afterFlush_delivery {middle : Shared} {told : List Notice} {origin : FlushOrigin}
    {stage : FlushStage} (waits : FlushWaits system)
    (flushing : system.flush = some (origin, stage))
    (batch : middle.batch = system.shared.batch)
    (accepted : middle.accepted = system.shared.accepted)
    (notices : middle.notices = system.shared.notices ++ told)
    (plain : ∀ notice ∈ told, notice.message.isInclusion = false)
    (leaves : ∀ notice ∈ told, notice.proof ∈ system.shared.batchQueue.items ∧
      notice.proof ∉ middle.batchQueue.items)
    (queued : ∀ entry ∈ middle.batchQueue.items, entry ∈ system.shared.batchQueue.items) :
    Delivery environment system label (middle.afterFlush origin) := by
  cases origin with
  | disabledVerifiers =>
      apply Delivery.lose accepted notices plain
      · exact fun notice member => .inl (leaves notice member)
      · exact queued
      · exact .inl (Shared.unanswered_of_same batch)
  | insufficientBalance =>
      obtain ⟨work, address, current⟩ := waits _ flushing
      have reset : middle.afterFlush .insufficientBalance = middle.resetBatch work := by
        simp [Shared.afterFlush, batch, current]
      have inFlight : system.shared.unanswered = work.entries :=
        Shared.unanswered_of_current current (by simp)
      obtain ⟨toldUsers, users, toldWhom⟩ := Shared.notify_notices work.entries .batchReset
        { middle with batch := none }
      have sent : (middle.resetBatch work).notices =
          system.shared.notices ++ (told ++ toldUsers) := by
        rw [← List.append_assoc, ← notices]
        exact users
      rw [reset]
      refine .lose accepted sent ?_ ?_ queued (.inr rfl)
      · intro notice member
        rcases List.mem_append.mp member with before | user
        · exact plain notice before
        · rw [(toldWhom notice user).2]
          rfl
      · intro notice member
        rcases List.mem_append.mp member with before | user
        · exact .inl (leaves notice before)
        · right
          rw [inFlight]
          exact ⟨(toldWhom notice user).1, rfl⟩

/-- The flush of the queue tells everybody whose proof was in it. -/
private theorem flush_told (shared : Shared) :
    ∃ told, shared.flush.notices = shared.notices ++ told ∧
      (∀ notice ∈ told, notice.message.isInclusion = false) ∧
      ∀ notice ∈ told, notice.proof ∈ shared.batchQueue.items ∧
        notice.proof ∉ shared.flush.batchQueue.items := by
  obtain ⟨told, notices, toldWhom⟩ := Shared.notify_notices shared.batchQueue.items .batchReset
    { shared with
      batchQueue := PriorityQueue.empty
      userStates := fun _ => none }
  refine ⟨told, notices, ?_, ?_⟩
  · intro notice member
    rw [(toldWhom notice member).2]
    rfl
  · intro notice member
    exact ⟨(toldWhom notice member).1, List.not_mem_nil⟩

private theorem removeUserProofs_delivery (address : Address) :
    Delivery environment system label (system.shared.removeUserProofs address) := by
  obtain ⟨told, notices, toldWhom⟩ := Shared.notify_notices
    ((system.shared.batchQueue.extractIf fun entry => entry.sender = address).1.map Prod.fst)
    .userFundsUnlocked
    { system.shared with
      batchQueue := (system.shared.batchQueue.extractIf fun entry => entry.sender = address).2
      userStates := Function.update system.shared.userStates address none }
  refine .lose rfl notices ?_ ?_ ?_ (.inl rfl)
  · intro notice member
    rw [(toldWhom notice member).2]
    rfl
  · intro notice member
    have removed : notice.proof ∈ system.shared.batchQueue.items ∧
        notice.proof.sender = address := by
      have proof := (toldWhom notice member).1
      simp only [PriorityQueue.extractIf] at proof
      obtain ⟨stored, storedMember, same⟩ := List.mem_map.mp proof
      obtain ⟨inQueue, ofUser⟩ := List.mem_filter.mp storedMember
      rw [← same]
      exact ⟨mem_items_of_mem inQueue, of_decide_eq_true ofUser⟩
    refine .inl ⟨removed.1, ?_⟩
    rw [Shared.removeUserProofs_items]
    simp [removed.2]
  · intro entry member
    rw [Shared.removeUserProofs_items] at member
    exact (List.mem_filter.mp member).1

private theorem extract_delivery {layout : QueueLayout} {gasPrice blockNumber : Nat}
    (idle : system.shared.batch = none) :
    Delivery environment system label
      (system.shared.extract environment config layout gasPrice blockNumber) := by
  rcases Shared.extract_cases environment config layout gasPrice blockNumber system.shared with
    ⟨rest, same, equation⟩ | ⟨entries, rest, extracted, equation⟩
  · rw [equation]
    refine .of_quiet rfl rfl ?_ rfl
    exact fun entry member => (same.map Prod.fst).mem_iff.mp member
  · rw [equation]
    exact .extract idle extracted rfl rfl rfl

/-- Every step but the answers to a batch is a delivery. -/
theorem Change.delivery (waits : FlushWaits system) (notRespond : label.isRespond = false)
    (change : Change environment config system label after) :
    Delivery environment system label after := by
  cases change with
  | unchanged => exact .of_same rfl rfl rfl rfl
  | insertUser running => exact .of_same rfl rfl rfl rfl
  | @enqueue task layout request ref balance running room =>
      refine @Delivery.accept _ _ _ _ task request [] (.enqueue running) rfl ?_ ?_ ?_ ?_ rfl
      · exact (List.append_nil _).symm
      · simp
      · simp
      · exact fun entry => mem_items_push
  | @evict task layout request ref evictedRef balance target evicted running full found removed =>
      obtain ⟨-, -, ⟨priority, stored⟩, -⟩ := Shared.evictionTarget_eq_some found
      obtain ⟨userStates, cells, rfl⟩ := Shared.evict_eq_ok removed
      obtain ⟨told, notices, toldWhom⟩ := Shared.notify_notices [target] .underpricedProof
        { system.shared with
          batchQueue := system.shared.batchQueue.erase target.key
          userStates := userStates
          cells := cells }
      refine .accept (.enqueue running) rfl notices ?_ ?_ ?_ rfl
      · intro notice member
        rw [(toldWhom notice member).2]
        rfl
      · intro notice member
        rw [List.mem_singleton.mp (toldWhom notice member).1]
        refine ⟨mem_items_of_mem stored, ?_⟩
        intro stays
        rcases mem_items_push stays with new | before
        · exact new
        · exact absurd rfl (mem_items_erase.mp before).2
      · intro entry member
        rcases mem_items_push member with new | before
        · exact .inl new
        · exact .inr (mem_items_erase.mp before).1
  | @evictPanics task layout request ref evictedRef balance target evicted running full found
      removed =>
      obtain ⟨userStates, cells, rfl⟩ := Shared.evict_eq_error removed
      refine .of_quiet rfl rfl ?_ rfl
      exact fun entry member => (mem_items_erase.mp member).1
  | @replace task verifier request ref balance original running stored bumped valid =>
      obtain ⟨⟨priority, inQueue⟩, -⟩ := BatchState.getEntry_eq_some stored
      obtain ⟨told, notices, toldWhom⟩ := Shared.notify_notices [original] .proofReplaced
        system.shared
      have replaced : (System.replacementEntry environment request original).key =
          original.key := System.replacementEntry_key stored
      rw [replacementEntry_eq stored] at replaced ⊢
      refine .accept (.replace running) rfl notices ?_ ?_ ?_ rfl
      · intro notice member
        rw [(toldWhom notice member).2]
        rfl
      · intro notice member
        rw [List.mem_singleton.mp (toldWhom notice member).1]
        refine ⟨mem_items_of_mem inQueue, ?_⟩
        intro stays
        rcases mem_items_push stays with new | before
        · exact new
        · exact absurd replaced.symm (mem_items_erase.mp before).2
      · intro entry member
        rcases mem_items_push member with new | before
        · exact .inl new
        · exact .inr (mem_items_erase.mp before).1
  | @refuseReplacement task verifier request ref balance original running stored bumped
      invalid =>
      obtain ⟨⟨priority, inQueue⟩, same⟩ := BatchState.getEntry_eq_some stored
      exact .refuse (.replace running) (mem_items_of_mem inQueue) same rfl
  | extract idle => exact extract_delivery idle
  | advance current unsent later =>
      have isOpen := Stage.isOpen_of_isUnsent unsent
      have nextOpen := later.elim Stage.isOpen_of_isUnsent Stage.isOpen_of_isLost
      exact .of_same rfl rfl rfl (Shared.unanswered_enter current
        (Stage.ne_restored_of_isOpen isOpen) (Stage.ne_restored_of_isOpen nextOpen))
  | @send answer label batch stage next labelled current unsent answered =>
      have isOpen := Stage.isOpen_of_isUnsent unsent
      have nextOpen : next.isOpen = true := by
        rcases answered with ⟨-, rfl⟩ | ⟨-, later⟩
        · rfl
        · exact later.elim Stage.isOpen_of_isUnsent Stage.isOpen_of_isLost
      refine .of_same rfl rfl rfl ?_
      have sent : (system.shared.broadcast batch).batch = some (batch, stage) := current
      rw [Shared.unanswered_enter sent (Stage.ne_restored_of_isOpen isOpen)
        (Stage.ne_restored_of_isOpen nextOpen)]
      rfl
  | giveUpWaiting current =>
      exact .of_same rfl rfl rfl (Shared.unanswered_enter current (by simp) (by simp))
  | endCancel current =>
      exact .of_same rfl rfl rfl (Shared.unanswered_enter current (by simp) (by simp))
  | receipt current included =>
      exact .of_same rfl rfl rfl (Shared.unanswered_enter current (by simp) (by simp))
  | @updateUser layout address batch users current member free =>
      obtain ⟨cells, equation⟩ := Shared.updateUser_eq layout address system.shared
      rw [equation]
      exact .of_same rfl rfl rfl (Shared.unanswered_enter current (by simp) (by simp))
  | @updateRestoredUser layout address batch users current member free =>
      obtain ⟨cells, equation⟩ := Shared.updateUser_eq layout address system.shared
      rw [equation]
      exact .of_same rfl rfl rfl (Shared.unanswered_of_restored current).symm
  | @cleanupUser layout address batch users current free =>
      obtain ⟨cells, equation⟩ := Shared.cleanupUser_eq layout address system.shared
      rw [equation]
      exact .of_same rfl rfl rfl (Shared.unanswered_enter current (by simp) (by simp))
  | close current closed updated later =>
      refine .of_same rfl rfl rfl (Shared.unanswered_enter current ?_ ?_)
      · rintro users rfl
        cases closed
      · rintro users rfl
        rcases later with ⟨others, same⟩ | same
        · cases same
        · cases same
  | endRestored current =>
      exact .of_same rfl rfl rfl (Shared.unanswered_of_restored current).symm
  | respond current => cases notRespond
  | restore current ran =>
      obtain ⟨queue, users, lost, rfl, permutation⟩ := Shared.restore_eq_some ran
      refine .restore rfl rfl ?_ rfl
      intro entry member
      rw [Shared.unanswered_of_current current (by simp)]
      exact List.mem_append.mp (permutation.mem_iff.mpr (List.mem_append_right lost member))
  | flush =>
      obtain ⟨told, notices, plain, leaves⟩ := flush_told system.shared
      refine .lose rfl notices plain ?_ ?_ (.inl rfl)
      · exact fun notice member => .inl (leaves notice member)
      · exact fun entry member => absurd member List.not_mem_nil
  | flushAndReset labelled flushing =>
      obtain ⟨told, notices, plain, leaves⟩ := flush_told system.shared
      refine afterFlush_delivery waits flushing ?_ ?_ notices plain leaves ?_
      · rfl
      · rfl
      · exact fun entry member => absurd member List.not_mem_nil
  | @insertNonpaying origin address nonce flushing configured =>
      have notices : (system.shared.createUser address nonce).notices =
          system.shared.notices ++ [] := (List.append_nil _).symm
      refine afterFlush_delivery waits flushing rfl rfl notices ?_ ?_ ?_
      · simp
      · simp
      · exact fun entry member => member
  | removeUserProofs polled => exact removeUserProofs_delivery _
  | mine mined => exact .of_same rfl rfl rfl rfl
  | dropTransaction => exact .of_same rfl rfl rfl rfl
  | userCall called => exact .of_same rfl rfl rfl rfl

/-- What is in flight afterwards was in flight or queued. -/
theorem Delivery.of_unanswered (delivery : Delivery environment system label after)
    {entry : BatchQueueEntry} (member : entry ∈ after.unanswered) :
    entry ∈ system.shared.batchQueue.items ∨ entry ∈ system.shared.unanswered := by
  cases delivery with
  | lose accepted notices plain leaves queued unanswered =>
      rcases unanswered with same | none
      · exact .inr (same ▸ member)
      · rw [none] at member
        cases member
  | accept adds accepted notices plain leaves queued unanswered => exact .inr (unanswered ▸ member)
  | refuse adds stored same refused =>
      subst refused
      exact .inr member
  | extract idle extracted accepted notices unanswered =>
      obtain ⟨extracted⟩ := extracted
      rw [unanswered] at member
      left
      exact (Shared.items_of_extracted extracted).mem_iff.mpr (List.mem_append_left _ member)
  | restore accepted notices queued unanswered =>
      rw [unanswered] at member
      cases member

/-- Messages that tell no inclusion answer no proof. -/
theorem Shared.answered_of_plain {shared after : Shared} {told : List Notice}
    (notices : after.notices = shared.notices ++ told)
    (plain : ∀ notice ∈ told, notice.message.isInclusion = false) :
    after.answered = shared.answered := by
  have nothing : (told.filter fun notice => notice.message.isInclusion) = [] := by
    apply List.filter_eq_nil_iff.mpr
    intro notice member
    rw [plain notice member]
    exact Bool.false_ne_true
  rw [answered, answered, notices, List.filter_append, nothing, List.append_nil]

/-- Nothing goes out but responses when no message of the connection is
refused, and no notice goes to it but inclusions. -/
theorem newMessages_onWire {Payload : Type} (cbor : Sdk.CborCrate Payload) {sink : WsMessageSink}
    {told : List Notice} (replies : ∀ reply ∈ next.replies, reply.1 ≠ sink)
    (notices : next.shared.notices = system.shared.notices ++ told)
    (quiet : ∀ notice ∈ told, notice.proof.messagingSink = some sink →
      notice.message.isInclusion = true) :
    ((system.newMessages sink next).filterMap fun message =>
      message.onWire.bind cbor.serializeResponse) = [] := by
  apply List.filterMap_eq_nil_iff.mpr
  intro message member
  rcases List.mem_append.mp member with reply | notice
  · obtain ⟨sent, sentMember, rfl⟩ := List.mem_map.mp reply
    obtain ⟨dropped, same⟩ := List.mem_filter.mp sentMember
    exact absurd (of_decide_eq_true same) (replies sent (List.mem_of_mem_drop dropped))
  · obtain ⟨sent, sentMember, rfl⟩ := List.mem_map.mp notice
    rw [notices, List.drop_left] at sentMember
    obtain ⟨toldMember, same⟩ := List.mem_filter.mp sentMember
    have inclusion := quiet sent toldMember (of_decide_eq_true same)
    cases message : sent.message with
    | batchInclusionData index nonce => rfl
    | _ =>
        rw [message] at inclusion
        cases inclusion

/-! ## The responses to one client -/

/-- The inclusion data lead from the commitment of the entry to the root. -/
structure Responds (crate : MerkleTreeCrate VerificationDataCommitment Bytes32)
    (entry : BatchQueueEntry) (inclusion : BatchInclusionData) : Prop where
  nonce : inclusion.userNonce = entry.nonce
  verified : verifyProofInclusion crate entry.verificationDataCommitment inclusion = true

theorem getElem?_of_mem_numbered {entries : List BatchQueueEntry} {index : Nat}
    {entry : BatchQueueEntry} (member : (index, entry) ∈ Shared.numbered entries) :
    entries[index]? = some entry := by
  obtain ⟨position, found⟩ := List.mem_iff_getElem?.mp member
  rw [Shared.numbered, List.getElem?_zip_eq_some] at found
  obtain ⟨isIndex, isEntry⟩ := found
  obtain ⟨bound, same⟩ := List.getElem?_eq_some_iff.mp isIndex
  rw [List.getElem_range] at same
  subst same
  exact isEntry

theorem map_snd_numbered (entries : List BatchQueueEntry) :
    (Shared.numbered entries).map Prod.snd = entries :=
  List.map_snd_zip (by simp)

section

variable {Payload : Type} {crate : MerkleTreeCrate VerificationDataCommitment Bytes32}
  {cbor : Sdk.CborCrate Payload} {keccak : Bytes → Bytes32}

/-- Every connected entry gets its response, in the order of the loop. -/
theorem sendResponses_responds
    (documented : crate.Documented (VerificationCommitmentBatch.hashData keccak)
      (VerificationCommitmentBatch.hashNewParent keccak))
    (roundTrip : cbor.Documented) (sink : WsMessageSink)
    {batch : List VerificationDataCommitment} {entries : List (Nat × BatchQueueEntry)}
    (placed : ∀ indexed ∈ entries,
      batch[indexed.1]? = some indexed.2.verificationDataCommitment)
    (connected : ∀ indexed ∈ entries, indexed.2.messagingSink.isSome = true) :
    ∃ inclusions,
      List.Forall₂ (Responds crate) (entriesOn sink (entries.map Prod.snd)) inclusions ∧
      Sdk.Carries cbor (((sendResponses crate cbor batch entries).1.filter fun response =>
        response.1 = sink).map Prod.snd) inclusions := by
  induction entries with
  | nil => exact ⟨[], .nil, .nil⟩
  | cons indexed rest induction =>
      obtain ⟨index, entry⟩ := indexed
      obtain ⟨inclusions, responds, carries⟩ := induction
        (fun other member => placed other (List.mem_cons_of_mem _ member))
        (fun other member => connected other (List.mem_cons_of_mem _ member))
      obtain ⟨path, root, isData, -, -, verified⟩ := BatchInclusionData.new_eq_some documented
        (placed (index, entry) List.mem_cons_self) entry.nonce
      obtain ⟨payload, serialized, deserialized⟩ := roundTrip.response
        (.batchInclusionData ⟨root, path, index, entry.nonce⟩)
      obtain ⟨own, isOwn⟩ := Option.isSome_iff_exists.mp
        (connected (index, entry) List.mem_cons_self)
      dsimp only at isOwn
      simp only [sendResponses, isData, serialized, isOwn, List.map_cons]
      by_cases same : own = sink
      · refine ⟨⟨root, path, index, entry.nonce⟩ :: inclusions, ?_, ?_⟩
        · rw [entriesOn, List.filter_cons_of_pos (by simp [isOwn, same])]
          exact .cons ⟨rfl, verified⟩ responds
        · rw [List.filter_cons_of_pos (by simp [same])]
          exact .cons deserialized carries
      · refine ⟨inclusions, ?_, ?_⟩
        · rw [entriesOn, List.filter_cons_of_neg (by simp [isOwn, same])]
          exact responds
        · rw [List.filter_cons_of_neg (by simp [same])]
          exact carries

/-- The entries of a connection get their responses in reverse. -/
theorem sendBatchInclusionDataResponses_responds
    (documented : crate.Documented (VerificationCommitmentBatch.hashData keccak)
      (VerificationCommitmentBatch.hashNewParent keccak))
    (roundTrip : cbor.Documented) (sink : WsMessageSink) {entries : List BatchQueueEntry}
    (connected : ∀ entry ∈ entries, entry.messagingSink.isSome = true) :
    ∃ inclusions,
      List.Forall₂ (Responds crate) (entriesOn sink entries).reverse inclusions ∧
      Sdk.Carries cbor (((sendBatchInclusionDataResponses crate cbor entries).1.filter
        fun response => response.1 = sink).map Prod.snd) inclusions := by
  rw [← entriesOn_reverse]
  conv in entries.reverse => rw [← map_snd_numbered entries, ← List.map_reverse]
  apply sendResponses_responds documented roundTrip
  · intro indexed member
    rw [List.getElem?_map, getElem?_of_mem_numbered (List.mem_reverse.mp member)]
    rfl
  · intro indexed member
    apply connected
    exact List.mem_of_getElem? (getElem?_of_mem_numbered (List.mem_reverse.mp member))

end

end AlignedLayer
