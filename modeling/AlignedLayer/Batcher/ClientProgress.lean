import AlignedLayer.Batcher.BatchFinalization
import AlignedLayer.Batcher.Connection
import AlignedLayer.Library.SortedRange
import Mathlib.Data.List.Pairwise

/-!
# The proofs of a client on their way to the answers

The proofs a client sends on one connection with one fee and consecutive
nonces are answered, in flight, queued or still to be accepted, in the order
in which they were sent; every step of the batcher keeps this order.
-/

namespace AlignedLayer

variable {environment : Environment} {config : Config} {system next : System} {label : Label}
  {after : Shared}

/-! ## Handlers and their requests -/

theorem Adds.task {task : TaskId} {request : Request} (adds : Adds system label task request) :
    label.task? = some task := by
  cases adds with
  | enqueue running => rfl
  | replace running => rfl

/-- A handler has the request it had, and its proof is not added yet, or it
has just received its message. -/
theorem step_request {task : TaskId} {request : Request} {phase : Phase}
    (stepped : (batcher environment config).step system label = some next)
    (running : next.handlers task = some (request, phase)) :
    ((∃ earlier, system.handlers task = some (request, earlier)) ∧
        ∀ other, ¬ Adds system label task other) ∨
      ∃ message sink addr data, label = .receive task message sink ∧
        validateMessage environment config message = .ok (addr, data) ∧
        request = ⟨addr, data, message.signature, sink⟩ := by
  by_cases own : label.task? = some task
  · cases label
    all_goals simp only [Label.task?, Option.some.injEq, reduceCtorEq] at own
    all_goals subst own
    case receive =>
      right
      simp only [batcher, System.receive] at stepped
      split at stepped
      · cases stepped
      · rename_i idle
        have before := Option.not_isSome_iff_eq_none.mp idle
        split at stepped
        · cases stepped
          simp only [System.reply, before, reduceCtorEq] at running
        · rename_i addr data accepted
          split at stepped
          · cases stepped
            simp only [System.reply, before, reduceCtorEq] at running
          · cases stepped
            simp only [System.goto, Function.update_self, Option.some.injEq,
              Prod.mk.injEq] at running
            exact ⟨_, _, addr, data, rfl, accepted, running.1.symm⟩
    all_goals
      simp only [batcher, System.checkLocked, System.checkUser, System.fetchNonce,
        System.insertUser, System.getUser, System.lockUser, System.readBalance,
        System.verifyProof, System.enqueue, System.replace, System.timeout] at stepped
      repeat' split at stepped
    all_goals cases stepped
    all_goals simp only [System.goto, System.reject, System.finish, Function.update_self,
      Option.some.injEq, Prod.mk.injEq, reduceCtorEq] at running
    all_goals
      left
      obtain ⟨rfl, -⟩ := running
      exact ⟨⟨_, by assumption⟩, by intro other adds; cases adds⟩
  · left
    obtain ⟨same, -⟩ := step_sameOthers stepped task own
    rw [same] at running
    exact ⟨⟨phase, running⟩, fun other adds => own adds.task⟩

/-! ## One client -/

/-- A connection, the task that serves it, and what is sent on it by the owner
of the address. -/
structure Client where
  task : TaskId
  sink : WsMessageSink
  address : Address
  messages : List SubmitProofMessage

/-- Who pays for a proof of the address, and up to which fee. -/
def Config.payer (config : Config) (address : Address) (maxFee : Nat) : Address × Nat :=
  match config.nonPayingConfig with
  | none => (address, maxFee)
  | some nonPaying =>
      if nonPaying.address = address then (nonPaying.replacement, defaultMaxFeePerProof * 100)
      else (address, maxFee)

namespace Client

variable (environment : Environment) (config : Config) (client : Client)

/-- What a handler works on for a message of the client. -/
def request (message : SubmitProofMessage) : Request :=
  let data := message.verificationData
  let (addr, maxFee) := config.payer client.address data.maxFee
  ⟨addr, { data with maxFee := maxFee }, message.signature, client.sink⟩

/-- The queue entries of the proofs. -/
def proofs : List BatchQueueEntry :=
  client.messages.map fun message =>
    System.newEntry environment (client.request config message)

/-- Neither sent by the client, nor under the sender and nonce of one of its
proofs. -/
def IsForeign (entry : BatchQueueEntry) : Prop :=
  entry.messagingSink ≠ some client.sink ∧
    entry.key ∉ (client.proofs environment config).map BatchQueueEntry.key

/-- Every accepted proof is queued, in the batch in flight, or answered: none
was evicted, flushed or dropped. -/
def Keeps (shared : Shared) : Prop :=
  ∀ entry ∈ shared.acceptedOn client.sink,
    entry ∈ shared.batchQueue.items ∨ entry ∈ shared.unanswered ∨ entry ∈ shared.answered

/-- No message was refused, and every accepted proof is kept. -/
def Undisturbed (system : System) : Prop :=
  (∀ reply ∈ system.replies, reply.1 ≠ client.sink) ∧ client.Keeps system.shared

instance (shared : Shared) : Decidable (client.Keeps shared) :=
  inferInstanceAs (Decidable (∀ _ ∈ _, _ ∨ _))

instance (system : System) : Decidable (client.Undisturbed system) :=
  inferInstanceAs (Decidable (_ ∧ _))

/-- The connection is served by one task, which handles the messages in order
and one at a time; the next one is read once those before it are accepted.
Nobody else adds a proof or a replacement under the sender and nonce of one of
the proofs, and the responses can be serialized. -/
def InTurn (system : System) : Label → Prop
  | .receive task message sink =>
      (task = client.task ↔ sink = client.sink) ∧
        (sink = client.sink →
          client.messages[(system.shared.acceptedOn client.sink).length]? = some message)
  | .enqueue task _ => task ≠ client.task → system.When Phase.enqueuing (fun request _ =>
      (request.addr, request.noncedVerificationData.nonce) ∉
        (client.proofs environment config).map BatchQueueEntry.key) task
  | .replace task _ => task ≠ client.task → system.When Phase.replacing (fun request _ =>
      (request.addr, request.noncedVerificationData.nonce) ∉
        (client.proofs environment config).map BatchQueueEntry.key) task
  | .respond serializationFails => system.shared.OfBatch fun batch =>
      ∀ index < batch.entries.length, serializationFails index = false
  | _ => True

theorem notMem_keys {key : Address × Nat} {entries : List BatchQueueEntry} :
    (∀ entry ∈ entries, entry.key ≠ key) ↔ key ∉ entries.map BatchQueueEntry.key := by
  simp

instance (system : System) (label : Label) :
    Decidable (client.InTurn environment config system label) := by
  have avoids : ∀ key : Address × Nat, Decidable
      (key ∉ (client.proofs environment config).map BatchQueueEntry.key) :=
    fun _ => decidable_of_iff _ notMem_keys
  apply @Label.casesOn
    (fun label => Decidable (client.InTurn environment config system label)) label
  all_goals intros
  all_goals dsimp only [InTurn]
  all_goals infer_instance

/-- The condition on a step under which the proofs of the client are kept. -/
def Serves (system : System) (label : Label) : Prop :=
  client.InTurn environment config system label ∧
    ∀ next ∈ (batcher environment config).step system label, client.Undisturbed next

instance (system : System) (label : Label) :
    Decidable (client.Serves environment config system label) :=
  inferInstanceAs (Decidable (_ ∧ _))

/-- The proofs go to the connection of the client, from one sender and for one
fee, in ascending order of their nonces. -/
structure Ordered : Prop where
  sinks : ∀ entry ∈ client.proofs environment config,
    entry.messagingSink = some client.sink
  ascends : (client.proofs environment config).Pairwise fun earlier later =>
    earlier.sender = later.sender ∧ earlier.maxFee = later.maxFee ∧
      earlier.nonce < later.nonce

/-- The task of the client works on the next proof, and other tasks on the
messages of others. -/
structure Handles (system : System) : Prop where
  own : ∀ request phase, system.handlers client.task = some (request, phase) →
    (client.proofs environment config)[(system.shared.acceptedOn client.sink).length]? =
      some (System.newEntry environment request)
  others : ∀ task request phase, system.handlers task = some (request, phase) →
    task ≠ client.task → request.wsConnSink ≠ client.sink

/-- What is queued or in flight is a proof of the client or foreign, has a
connection, and carries its own priority if it is the client's. -/
structure Tidy (shared : Shared) : Prop where
  separate : ∀ entry, entry ∈ shared.batchQueue.items ∨ entry ∈ shared.unanswered →
    entry ∈ client.proofs environment config ∨ client.IsForeign environment config entry
  connected : ∀ entry, entry ∈ shared.batchQueue.items ∨ entry ∈ shared.unanswered →
    entry.messagingSink.isSome = true
  priorities : ∀ stored ∈ shared.batchQueue.entries,
    stored.1.messagingSink = some client.sink → stored.2 = stored.1.priority

/-- The proofs are answered, in flight, queued, or still to be accepted, in
this order. -/
structure Progress {Payload : Type}
    (crate : MerkleTreeCrate VerificationDataCommitment Bytes32) (cbor : Sdk.CborCrate Payload)
    (shared : Shared) (stream : List Payload)
    (answered flight waiting upcoming : List BatchQueueEntry) : Prop where
  proofs : client.proofs environment config = answered ++ (flight ++ (waiting ++ upcoming))
  accepted : shared.acceptedOn client.sink = answered ++ (flight ++ waiting)
  answers : entriesOn client.sink shared.answered = answered
  inFlight : entriesOn client.sink shared.unanswered = flight.reverse
  queued : ∀ entry ∈ entriesOn client.sink shared.batchQueue.items, entry ∈ waiting
  responses : ∃ inclusions, List.Forall₂ (Responds crate) answered inclusions ∧
    Sdk.Carries cbor stream inclusions

variable {environment config client}

/-! ## What the steps queue -/

theorem Ordered.nonces_nodup (ordered : client.Ordered environment config) :
    ((client.proofs environment config).map BatchQueueEntry.nonce).Nodup := by
  apply List.pairwise_map.mpr
  exact ordered.ascends.imp fun order => Nat.ne_of_lt order.2.2

theorem Ordered.eq_of_key_eq (ordered : client.Ordered environment config)
    {left right : BatchQueueEntry} (leftMember : left ∈ client.proofs environment config)
    (rightMember : right ∈ client.proofs environment config) (same : left.key = right.key) :
    left = right :=
  List.inj_on_of_nodup_map ordered.nonces_nodup leftMember rightMember (congrArg Prod.snd same)

/-- All proofs have one sender and offer one fee. -/
theorem Ordered.same_offer (ordered : client.Ordered environment config)
    {left right : BatchQueueEntry} (leftMember : left ∈ client.proofs environment config)
    (rightMember : right ∈ client.proofs environment config) :
    left.sender = right.sender ∧ left.maxFee = right.maxFee := by
  have symm : Std.Symm fun left right : BatchQueueEntry =>
      left.sender = right.sender ∧ left.maxFee = right.maxFee :=
    ⟨fun _ _ same => ⟨same.1.symm, same.2.symm⟩⟩
  have offers : (client.proofs environment config).Pairwise fun left right =>
      left.sender = right.sender ∧ left.maxFee = right.maxFee :=
    ordered.ascends.imp fun order => ⟨order.1, order.2.1⟩
  exact offers.forall_of_forall (fun _ _ => ⟨rfl, rfl⟩) leftMember rightMember

/-- A handler that adds a proof adds the next one of the client, or a foreign
one. -/
theorem separate_of_adds {task : TaskId} {request : Request} (adds : Adds system label task request)
    (handles : client.Handles environment config system)
    (inTurn : client.InTurn environment config system label) :
    (task = client.task ∧
        (client.proofs environment config)[(system.shared.acceptedOn client.sink).length]? =
          some (System.newEntry environment request)) ∨
      (task ≠ client.task ∧
        client.IsForeign environment config (System.newEntry environment request)) := by
  have foreign : ∀ {phase : Phase}, system.handlers task = some (request, phase) →
      task ≠ client.task →
      (request.addr, request.noncedVerificationData.nonce) ∉
        (client.proofs environment config).map BatchQueueEntry.key →
      client.IsForeign environment config (System.newEntry environment request) := by
    intro phase running other fresh
    refine ⟨?_, fresh⟩
    have elsewhere := handles.others task request phase running other
    simpa [System.newEntry] using elsewhere
  by_cases own : task = client.task
  · left
    refine ⟨own, ?_⟩
    cases adds with
    | enqueue running => exact handles.own request _ (own ▸ running)
    | replace running => exact handles.own request _ (own ▸ running)
  · right
    refine ⟨own, ?_⟩
    cases adds with
    | enqueue running => exact foreign running own ((inTurn own).running running rfl)
    | replace running => exact foreign running own ((inTurn own).running running rfl)

theorem separate_of_queues {entry : BatchQueueEntry}
    (queues : Queues environment system label entry)
    (handles : client.Handles environment config system)
    (tidy : client.Tidy environment config system.shared)
    (inTurn : client.InTurn environment config system label) :
    (entry ∈ client.proofs environment config ∨ client.IsForeign environment config entry) ∧
      entry.messagingSink.isSome = true := by
  have added : ∀ {task : TaskId} {request : Request}, Adds system label task request →
      System.newEntry environment request ∈ client.proofs environment config ∨
        client.IsForeign environment config (System.newEntry environment request) := by
    intro task request adds
    rcases separate_of_adds adds handles inTurn with ⟨-, next⟩ | ⟨-, foreign⟩
    · exact .inl (List.mem_of_getElem? next)
    · exact .inr foreign
  cases queues with
  | enqueue running => exact ⟨added (.enqueue running), rfl⟩
  | replace running stored =>
      rw [replacementEntry_eq stored]
      exact ⟨added (.replace running), rfl⟩
  | restore current member =>
      have inFlight := Shared.unanswered_of_current current (by simp)
      rw [← inFlight] at member
      exact ⟨tidy.separate _ (.inr member), tidy.connected _ (.inr member)⟩

/-- Among the proofs of the client, the one with the lower priority has the
lower nonce. -/
theorem Tidy.nonce_lt {shared : Shared} (tidy : client.Tidy environment config shared)
    (ordered : client.Ordered environment config)
    {low high : BatchQueueEntry × BatchQueueEntryPriority}
    (lowMember : low ∈ shared.batchQueue.entries) (highMember : high ∈ shared.batchQueue.entries)
    (lowOwn : low.1.messagingSink = some client.sink)
    (highOwn : high.1.messagingSink = some client.sink) (order : low.2 ≤ high.2)
    (different : low.1.key ≠ high.1.key) : low.1.nonce < high.1.nonce := by
  have isProof : ∀ {stored}, stored ∈ shared.batchQueue.entries →
      stored.1.messagingSink = some client.sink → stored.1 ∈ client.proofs environment config :=
    fun member own => (tidy.separate _ (.inl (mem_items_of_mem member))).resolve_right
      fun foreign => foreign.1 own
  obtain ⟨sameSender, sameFee⟩ := ordered.same_offer (isProof lowMember lowOwn)
    (isProof highMember highOwn)
  rw [tidy.priorities low lowMember lowOwn, tidy.priorities high highMember highOwn,
    BatchQueueEntry.priority_le_iff] at order
  have otherNonce : low.1.nonce ≠ high.1.nonce := fun same =>
    different (Prod.ext sameSender same)
  omega

/-- No step gives a proof of the client another priority. -/
theorem Tidy.step (tidy : client.Tidy environment config system.shared)
    (ordered : client.Ordered environment config)
    (handles : client.Handles environment config system)
    (inTurn : client.InTurn environment config system label)
    (change : Change environment config system label after)
    (unanswered : ∀ entry ∈ after.unanswered,
      entry ∈ system.shared.batchQueue.items ∨ entry ∈ system.shared.unanswered) :
    client.Tidy environment config after := by
  have known : ∀ entry, entry ∈ after.batchQueue.items ∨ entry ∈ after.unanswered →
      (entry ∈ client.proofs environment config ∨ client.IsForeign environment config entry) ∧
        entry.messagingSink.isSome = true := by
    intro entry member
    rcases member with queued | inFlight
    · rcases change.queued queued with before | queues
      · exact ⟨tidy.separate _ (.inl before), tidy.connected _ (.inl before)⟩
      · exact separate_of_queues queues handles tidy inTurn
    · have before := unanswered entry inFlight
      exact ⟨tidy.separate _ before, tidy.connected _ before⟩
  constructor
  · exact fun entry member => (known entry member).1
  · exact fun entry member => (known entry member).2
  · intro stored member own
    rcases change.stored member with before | ⟨-, entry, queues, priority, same⟩
    · exact tidy.priorities stored before own
    · -- The entry with its key can only be the proof itself.
      have isProof : stored.1 ∈ client.proofs environment config :=
        (known stored.1 (.inl (mem_items_of_mem member))).1.resolve_right
          fun foreign => foreign.1 own
      have pushed : entry ∈ client.proofs environment config := by
        refine (separate_of_queues queues handles tidy inTurn).1.resolve_right ?_
        intro foreign
        apply foreign.2
        rw [← same]
        exact List.mem_map_of_mem isProof
      rw [priority, ordered.eq_of_key_eq isProof pushed same]

/-! ## Where the proofs are after a step -/

section Progress

variable {Payload : Type} {crate : MerkleTreeCrate VerificationDataCommitment Bytes32}
  {cbor : Sdk.CborCrate Payload} {shared : Shared} {stream : List Payload}
  {answered flight waiting upcoming : List BatchQueueEntry} {entry : BatchQueueEntry}

namespace Progress

theorem nodup (progress : client.Progress environment config crate cbor shared stream answered
      flight waiting upcoming) (ordered : client.Ordered environment config) :
    (answered ++ (flight ++ (waiting ++ upcoming))).Nodup := by
  rw [← progress.proofs]
  exact ordered.nonces_nodup.of_map

theorem not_mem_of_flight (progress : client.Progress environment config crate cbor shared stream
      answered flight waiting upcoming) (ordered : client.Ordered environment config)
    (member : entry ∈ flight) : entry ∉ answered ∧ entry ∉ waiting := by
  have nodup := progress.nodup ordered
  constructor
  · intro other
    exact (List.disjoint_of_nodup_append nodup) other (List.mem_append_left _ member)
  · intro other
    exact (List.disjoint_of_nodup_append nodup.of_append_right) member
      (List.mem_append_left _ other)

theorem not_mem_of_waiting (progress : client.Progress environment config crate cbor shared stream
      answered flight waiting upcoming) (ordered : client.Ordered environment config)
    (member : entry ∈ waiting) : entry ∉ answered ∧ entry ∉ flight ∧ entry ∉ upcoming := by
  have nodup := progress.nodup ordered
  refine ⟨?_, ?_, ?_⟩
  · intro other
    exact (List.disjoint_of_nodup_append nodup) other
      (List.mem_append_right _ (List.mem_append_left _ member))
  · intro other
    exact (progress.not_mem_of_flight ordered other).2 member
  · intro other
    exact (List.disjoint_of_nodup_append nodup.of_append_right.of_append_right) member other

theorem mem_proofs (progress : client.Progress environment config crate cbor shared stream
      answered flight waiting upcoming) (member : entry ∈ flight ∨ entry ∈ waiting) :
    entry ∈ client.proofs environment config := by
  rw [progress.proofs]
  simp only [List.mem_append]
  tauto

theorem mem_acceptedOn (progress : client.Progress environment config crate cbor shared stream
      answered flight waiting upcoming) (member : entry ∈ flight ∨ entry ∈ waiting) :
    entry ∈ shared.acceptedOn client.sink := by
  rw [progress.accepted]
  simp only [List.mem_append]
  tauto

theorem mem_flight (progress : client.Progress environment config crate cbor shared stream
      answered flight waiting upcoming) (own : entry.messagingSink = some client.sink) :
    entry ∈ shared.unanswered ↔ entry ∈ flight := by
  rw [← @List.mem_reverse _ entry flight, ← progress.inFlight, mem_entriesOn]
  exact ⟨fun member => ⟨member, own⟩, fun member => member.1⟩

/-- A proof that is not answered yet stays in the queue or in flight. -/
theorem stays (progress : client.Progress environment config crate cbor shared stream answered
      flight waiting upcoming) (ordered : client.Ordered environment config)
    (keeps : client.Keeps after)
    (grown : ∀ entry ∈ shared.acceptedOn client.sink, entry ∈ after.acceptedOn client.sink)
    (answers : after.answered = shared.answered) (member : entry ∈ flight ∨ entry ∈ waiting) :
    entry ∈ after.batchQueue.items ∨ entry ∈ after.unanswered := by
  have own := ordered.sinks entry (progress.mem_proofs member)
  rcases keeps entry (grown entry (progress.mem_acceptedOn member)) with
    queued | inFlight | isAnswered
  · exact .inl queued
  · exact .inr inFlight
  · have inAnswered : entry ∈ answered := by
      rw [← progress.answers, mem_entriesOn, ← answers]
      exact ⟨isAnswered, own⟩
    rcases member with flown | waits
    · exact absurd inAnswered (progress.not_mem_of_flight ordered flown).1
    · exact absurd inAnswered (progress.not_mem_of_waiting ordered waits).1

/-- The same proofs are where they were. -/
theorem of_same (progress : client.Progress environment config crate cbor shared stream answered
      flight waiting upcoming)
    (accepted : after.acceptedOn client.sink = shared.acceptedOn client.sink)
    (answers : after.answered = shared.answered)
    (inFlight : entriesOn client.sink after.unanswered = entriesOn client.sink shared.unanswered)
    (queued : ∀ entry ∈ entriesOn client.sink after.batchQueue.items,
      entry ∈ shared.batchQueue.items) :
    client.Progress environment config crate cbor after stream answered flight waiting
      upcoming where
  proofs := progress.proofs
  accepted := by rw [accepted, progress.accepted]
  answers := by rw [answers, progress.answers]
  inFlight := by rw [inFlight, progress.inFlight]
  queued entry member := progress.queued entry
    (mem_entriesOn.mpr ⟨queued entry member, (mem_entriesOn.mp member).2⟩)
  responses := progress.responses

/-- A loss takes nothing from the client, and tells it nothing. -/
theorem lose {told : List Notice} (progress : client.Progress environment config crate cbor
      system.shared stream answered flight waiting upcoming)
    (ordered : client.Ordered environment config) (keeps : client.Keeps after)
    (accepted : after.accepted = system.shared.accepted)
    (answers : after.answered = system.shared.answered)
    (leaves : ∀ notice ∈ told,
      (notice.proof ∈ system.shared.batchQueue.items ∧
        notice.proof ∉ after.batchQueue.items) ∨
      (notice.proof ∈ system.shared.unanswered ∧ after.unanswered = []))
    (queued : ∀ entry ∈ after.batchQueue.items, entry ∈ system.shared.batchQueue.items)
    (unanswered : after.unanswered = system.shared.unanswered ∨ after.unanswered = []) :
    client.Progress environment config crate cbor after stream answered flight waiting upcoming ∧
      ∀ notice ∈ told, notice.proof.messagingSink ≠ some client.sink := by
  have sameAccepted : after.acceptedOn client.sink = system.shared.acceptedOn client.sink := by
    rw [Shared.acceptedOn, Shared.acceptedOn, accepted]
  have stays : ∀ {entry}, entry ∈ flight ∨ entry ∈ waiting →
      entry ∈ after.batchQueue.items ∨ entry ∈ after.unanswered :=
    progress.stays ordered keeps (fun entry member => sameAccepted ▸ member) answers
  have waits : ∀ {entry}, entry.messagingSink = some client.sink →
      entry ∈ system.shared.batchQueue.items → entry ∈ waiting :=
    fun own member => progress.queued _ (mem_entriesOn.mpr ⟨member, own⟩)
  -- A proof in flight cannot be back in the queue, so it is still in flight.
  have flying : ∀ entry ∈ flight, entry ∈ after.unanswered := by
    intro entry member
    rcases stays (.inl member) with inQueue | inFlight
    · have own := ordered.sinks entry (progress.mem_proofs (.inl member))
      exact absurd (waits own (queued entry inQueue))
        (progress.not_mem_of_flight ordered member).2
    · exact inFlight
  refine ⟨progress.of_same sameAccepted answers ?_ ?_, ?_⟩
  · rcases unanswered with same | nothing
    · rw [same]
    · have grounded : flight = [] := by
        apply List.eq_nil_iff_forall_not_mem.mpr
        intro entry member
        have inFlight := flying entry member
        rw [nothing] at inFlight
        cases inFlight
      rw [progress.inFlight, nothing, grounded]
      rfl
  · exact fun entry member => queued entry (mem_entriesOn.mp member).1
  · intro notice member own
    rcases leaves notice member with ⟨inQueue, gone⟩ | ⟨inFlight, nothing⟩
    · have isWaiting := waits own inQueue
      rcases stays (.inr isWaiting) with inQueue | inFlight
      · exact gone inQueue
      · rcases unanswered with same | nothing
        · rw [same, progress.mem_flight own] at inFlight
          exact (progress.not_mem_of_waiting ordered isWaiting).2.1 inFlight
        · rw [nothing] at inFlight
          cases inFlight
    · have stillFlying := flying notice.proof ((progress.mem_flight own).mp inFlight)
      rw [nothing] at stillFlying
      cases stillFlying

/-- The next proof to be accepted is the first of the upcoming ones. -/
theorem next_proof (progress : client.Progress environment config crate cbor shared stream
      answered flight waiting upcoming)
    (next : (client.proofs environment config)[(shared.acceptedOn client.sink).length]? =
      some entry) : ∃ rest, upcoming = entry :: rest := by
  have regrouped : answered ++ (flight ++ (waiting ++ upcoming)) =
      (answered ++ (flight ++ waiting)) ++ upcoming := by
    simp only [List.append_assoc]
  rw [progress.accepted, progress.proofs, regrouped,
    List.getElem?_append_right (Nat.le_refl _), Nat.sub_self] at next
  cases upcoming with
  | nil => cases next
  | cons first rest =>
      cases next
      exact ⟨rest, rfl⟩

/-- An acceptance adds the next proof of the client, or a foreign one. -/
theorem accept {task : TaskId} {request : Request} {told : List Notice}
    (progress : client.Progress environment config crate cbor system.shared stream answered flight
      waiting upcoming)
    (ordered : client.Ordered environment config)
    (handles : client.Handles environment config system)
    (inTurn : client.InTurn environment config system label) (keeps : client.Keeps after)
    (adds : Adds system label task request)
    (accepted : after.accepted = system.shared.accepted ++ [System.newEntry environment request])
    (answers : after.answered = system.shared.answered)
    (leaves : ∀ notice ∈ told, notice.proof ∈ system.shared.batchQueue.items ∧
      (notice.proof ∈ after.batchQueue.items →
        notice.proof = System.newEntry environment request))
    (queued : ∀ entry ∈ after.batchQueue.items,
      entry = System.newEntry environment request ∨ entry ∈ system.shared.batchQueue.items)
    (unanswered : after.unanswered = system.shared.unanswered) :
    (∃ waiting' upcoming', client.Progress environment config crate cbor after stream answered
        flight waiting' upcoming') ∧
      ∀ notice ∈ told, notice.proof.messagingSink ≠ some client.sink := by
  generalize isEntry : System.newEntry environment request = entry at *
  have sameAccepted : after.acceptedOn client.sink =
      system.shared.acceptedOn client.sink ++ entriesOn client.sink [entry] := by
    rw [Shared.acceptedOn, accepted, entriesOn_append]
    rfl
  have waits : ∀ {other}, other.messagingSink = some client.sink →
      other ∈ system.shared.batchQueue.items → other ∈ waiting :=
    fun own member => progress.queued _ (mem_entriesOn.mpr ⟨member, own⟩)
  have nobody : (entry.messagingSink = some client.sink → entry ∉ waiting) →
      ∀ notice ∈ told, notice.proof.messagingSink ≠ some client.sink := by
    intro notWaiting notice member own
    obtain ⟨inQueue, onlyNew⟩ := leaves notice member
    have isWaiting := waits own inQueue
    have grown : ∀ other ∈ system.shared.acceptedOn client.sink,
        other ∈ after.acceptedOn client.sink := by
      intro other otherMember
      rw [sameAccepted]
      exact List.mem_append_left _ otherMember
    rcases progress.stays ordered keeps grown answers (.inr isWaiting) with inQueue | inFlight
    · have same := onlyNew inQueue
      exact notWaiting (same ▸ own) (same ▸ isWaiting)
    · rw [unanswered, progress.mem_flight own] at inFlight
      exact (progress.not_mem_of_waiting ordered isWaiting).2.1 inFlight
  rcases separate_of_adds adds handles inTurn with ⟨-, next⟩ | ⟨-, foreign⟩
  · rw [isEntry] at next
    have own := ordered.sinks entry (List.mem_of_getElem? next)
    obtain ⟨rest, rfl⟩ := progress.next_proof next
    constructor
    · refine ⟨waiting ++ [entry], rest, ?_⟩
      constructor
      · rw [progress.proofs]
        simp only [List.append_assoc, List.singleton_append]
      · have single : entriesOn client.sink [entry] = [entry] := by
          simp [entriesOn, own]
        rw [sameAccepted, progress.accepted, single]
        simp only [List.append_assoc]
      · rw [answers, progress.answers]
      · rw [unanswered, progress.inFlight]
      · intro other member
        obtain ⟨inQueue, otherOwn⟩ := mem_entriesOn.mp member
        rcases queued other inQueue with rfl | before
        · exact List.mem_append_right _ List.mem_cons_self
        · exact List.mem_append_left _ (waits otherOwn before)
      · exact progress.responses
    · apply nobody
      intro _ isWaiting
      exact (progress.not_mem_of_waiting ordered isWaiting).2.2 List.mem_cons_self
  · rw [isEntry] at foreign
    constructor
    · refine ⟨waiting, upcoming, progress.of_same ?_ answers ?_ ?_⟩
      · rw [sameAccepted, entriesOn_eq_nil, List.append_nil]
        simpa using foreign.1
      · rw [unanswered]
      · intro other member
        obtain ⟨inQueue, otherOwn⟩ := mem_entriesOn.mp member
        rcases queued other inQueue with rfl | before
        · exact absurd otherOwn foreign.1
        · exact before
    · apply nobody
      exact fun own => absurd own foreign.1

/-- A replacement that is refused was not meant for a proof of the client. -/
theorem refuse {task : TaskId} {request : Request} {original : BatchQueueEntry}
    (progress : client.Progress environment config crate cbor system.shared stream answered flight
      waiting upcoming)
    (ordered : client.Ordered environment config)
    (handles : client.Handles environment config system)
    (inTurn : client.InTurn environment config system label)
    (adds : Adds system label task request) (stored : original ∈ system.shared.batchQueue.items)
    (same : original.key = (request.addr, request.noncedVerificationData.nonce)) :
    original.messagingSink ≠ some client.sink := by
  intro own
  have isWaiting := progress.queued _ (mem_entriesOn.mpr ⟨stored, own⟩)
  have isProof := progress.mem_proofs (.inr isWaiting)
  rcases separate_of_adds adds handles inTurn with ⟨-, next⟩ | ⟨-, foreign⟩
  · obtain ⟨rest, rfl⟩ := progress.next_proof next
    have isNext := ordered.eq_of_key_eq isProof (List.mem_of_getElem? next) same
    apply (progress.not_mem_of_waiting ordered isWaiting).2.2
    rw [isNext]
    exact List.mem_cons_self
  · apply foreign.2
    rw [System.newEntry_key, ← same]
    exact List.mem_map_of_mem isProof

/-- A restored batch waits in the queue again. -/
theorem restore (progress : client.Progress environment config crate cbor system.shared stream
      answered flight waiting upcoming)
    (accepted : after.accepted = system.shared.accepted)
    (answers : after.answered = system.shared.answered)
    (queued : ∀ entry ∈ after.batchQueue.items,
      entry ∈ system.shared.unanswered ∨ entry ∈ system.shared.batchQueue.items)
    (unanswered : after.unanswered = []) :
    client.Progress environment config crate cbor after stream answered [] (flight ++ waiting)
      upcoming := by
  constructor
  · rw [progress.proofs, List.nil_append, List.append_assoc]
  · rw [Shared.acceptedOn, accepted]
    exact progress.accepted
  · rw [answers, progress.answers]
  · rw [unanswered]
    rfl
  · intro entry member
    obtain ⟨inQueue, own⟩ := mem_entriesOn.mp member
    rcases queued entry inQueue with inFlight | before
    · exact List.mem_append_left _ ((progress.mem_flight own).mp inFlight)
    · exact List.mem_append_right _ (progress.queued entry (mem_entriesOn.mpr ⟨before, own⟩))
  · exact progress.responses

/-- The extraction takes the proofs of the client with the lowest nonces, and
puts them into the batch in descending order. -/
theorem extract {limits : ExtractionLimits} {batch : List BatchQueueEntry}
    (progress : client.Progress environment config crate cbor system.shared stream answered flight
      waiting upcoming)
    (ordered : client.Ordered environment config)
    (tidy : client.Tidy environment config system.shared) (keeps : client.Keeps after)
    (idle : system.shared.batch = none)
    (extracted : Extracted limits system.shared.batchQueue batch after.batchQueue)
    (accepted : after.accepted = system.shared.accepted)
    (answers : after.answered = system.shared.answered) (unanswered : after.unanswered = batch) :
    ∃ flight' waiting', client.Progress environment config crate cbor after stream answered
      flight' waiting' upcoming := by
  have grounded : flight = [] := by
    rw [← List.reverse_eq_nil_iff, ← progress.inFlight, Shared.unanswered_of_none idle]
    rfl
  subst grounded
  have sameAccepted : after.acceptedOn client.sink = system.shared.acceptedOn client.sink := by
    rw [Shared.acceptedOn, Shared.acceptedOn, accepted]
  have whole := Shared.items_of_extracted extracted
  have waits : ∀ {entry}, entry.messagingSink = some client.sink →
      entry ∈ system.shared.batchQueue.items → entry ∈ waiting :=
    fun own member => progress.queued _ (mem_entriesOn.mpr ⟨member, own⟩)
  have leaves : ∀ {stored}, stored ∈ extracted.taken → stored ∈ system.shared.batchQueue.entries :=
    fun member => mem_queue_of_mem_taken extracted member
  have remains : ∀ {stored}, stored ∈ after.batchQueue.entries →
      stored ∈ system.shared.batchQueue.entries :=
    fun member => extracted.perm.mem_iff.mpr (List.mem_append_right _ member)
  have above : ∀ low ∈ (entriesOn client.sink batch).reverse, ∀ high,
      high ∈ entriesOn client.sink after.batchQueue.items → low.nonce < high.nonce := by
    intro low lowMember high highMember
    obtain ⟨taken, lowOwn⟩ := mem_entriesOn.mp (List.mem_reverse.mp lowMember)
    obtain ⟨inQueue, highOwn⟩ := mem_entriesOn.mp highMember
    rw [extracted.batch_eq] at taken
    obtain ⟨lowStored, lowTaken, rfl⟩ := List.mem_map.mp taken
    obtain ⟨highStored, highLeft, rfl⟩ := List.mem_map.mp inQueue
    apply tidy.nonce_lt ordered (leaves lowTaken) (remains highLeft) lowOwn highOwn
    · exact extracted.separated lowStored lowTaken highStored highLeft
    · exact extracted.key_ne lowTaken highLeft
  have descends : (entriesOn client.sink batch).Pairwise fun first second =>
      second.nonce < first.nonce := by
    rw [extracted.batch_eq, entriesOn, List.filter_map, List.pairwise_map]
    have sorted := extracted.descends.filter
      ((fun entry => decide (entry.messagingSink = some client.sink)) ∘ Prod.fst)
    apply sorted.imp_of_mem
    intro first second firstMember secondMember order
    obtain ⟨firstTaken, firstOwn⟩ := List.mem_filter.mp firstMember
    obtain ⟨secondTaken, secondOwn⟩ := List.mem_filter.mp secondMember
    exact tidy.nonce_lt ordered (leaves secondTaken) (leaves firstTaken)
      (of_decide_eq_true secondOwn) (of_decide_eq_true firstOwn) order.1 order.2.symm
  obtain ⟨rest, split⟩ : ∃ rest, waiting = (entriesOn client.sink batch).reverse ++ rest := by
    apply @eq_append_of_divided _ BatchQueueEntry.nonce _ _ fun entry =>
      entry ∈ entriesOn client.sink after.batchQueue.items
    · have sorted : (client.proofs environment config).Pairwise fun earlier later =>
          earlier.nonce < later.nonce := ordered.ascends.imp fun order => order.2.2
      rw [progress.proofs, List.nil_append] at sorted
      exact (List.pairwise_append.mp (List.pairwise_append.mp sorted).2.1).1
    · exact List.pairwise_reverse.mpr descends
    · intro entry member
      obtain ⟨taken, own⟩ := mem_entriesOn.mp (List.mem_reverse.mp member)
      exact waits own (whole.mem_iff.mpr (List.mem_append_left _ taken))
    · intro entry member
      have own := ordered.sinks entry (progress.mem_proofs (.inr member))
      rcases progress.stays ordered keeps (fun entry member => sameAccepted ▸ member) answers
        (.inr member) with inQueue | inFlight
      · exact .inr (mem_entriesOn.mpr ⟨inQueue, own⟩)
      · rw [unanswered] at inFlight
        exact .inl (List.mem_reverse.mpr (mem_entriesOn.mpr ⟨inFlight, own⟩))
    · exact above
  refine ⟨(entriesOn client.sink batch).reverse, rest, ?_⟩
  constructor
  · rw [progress.proofs, split]
    simp only [List.nil_append, List.append_assoc]
  · rw [sameAccepted, progress.accepted, split, List.nil_append]
  · rw [answers, progress.answers]
  · rw [unanswered, List.reverse_reverse]
  · intro entry member
    obtain ⟨inQueue, own⟩ := mem_entriesOn.mp member
    have isWaiting := waits own (whole.mem_iff.mpr (List.mem_append_right _ inQueue))
    rw [split] at isWaiting
    rcases List.mem_append.mp isWaiting with low | isRest
    · exact absurd (above entry low entry member) (Nat.lt_irrefl _)
    · exact isRest
  · exact progress.responses

/-- The responses answer the proofs in flight, in ascending order. -/
theorem respond {serializationFails : Nat → Bool} {batch : InFlight}
    (progress : client.Progress environment config crate cbor shared stream answered flight
      waiting upcoming)
    (documented : crate.Documented (VerificationCommitmentBatch.hashData environment.keccak)
      (VerificationCommitmentBatch.hashNewParent environment.keccak))
    (roundTrip : cbor.Documented)
    (tidy : client.Tidy environment config shared)
    (current : shared.batch = some (batch, .responding))
    (serializes : ∀ index < batch.entries.length, serializationFails index = false) :
    client.Progress environment config crate cbor (shared.respond serializationFails batch)
        (stream ++ ((sendBatchInclusionDataResponses crate cbor batch.entries).1.filter
          fun response => response.1 = client.sink).map Prod.snd)
        (answered ++ flight) [] waiting upcoming ∧
      ∃ told, (shared.respond serializationFails batch).notices = shared.notices ++ told ∧
        ∀ notice ∈ told, notice.message.isInclusion = true := by
  have inFlight := Shared.unanswered_of_current current (by simp)
  have connected : ∀ entry ∈ batch.entries, entry.messagingSink.isSome = true :=
    fun entry member => tidy.connected entry (.inr (inFlight ▸ member))
  have own := progress.inFlight
  rw [inFlight] at own
  rw [Shared.respond_eq serializes connected]
  have inclusions : ∀ notice ∈ (Shared.numbered batch.entries).reverse.map (fun indexed =>
      (⟨indexed.2, .batchInclusionData indexed.1 indexed.2.nonce⟩ : Notice)),
      notice.message.isInclusion = true := by
    intro notice member
    obtain ⟨indexed, -, rfl⟩ := List.mem_map.mp member
    rfl
  refine ⟨?_, _, rfl, inclusions⟩
  constructor
  · rw [progress.proofs]
    simp only [List.nil_append, List.append_assoc]
  · apply progress.accepted.trans
    simp only [List.nil_append, List.append_assoc]
  · have proofs : ((Shared.numbered batch.entries).reverse.map fun indexed =>
        (⟨indexed.2, .batchInclusionData indexed.1 indexed.2.nonce⟩ : Notice)).map Notice.proof =
        batch.entries.reverse := by
      rw [List.map_map]
      conv_rhs => rw [← map_snd_numbered batch.entries, ← List.map_reverse]
      rfl
    rw [Shared.answered, List.filter_append, List.map_append, entriesOn_append,
      List.filter_eq_self.mpr inclusions, proofs, entriesOn_reverse, own, List.reverse_reverse]
    exact congrArg (· ++ flight) progress.answers
  · rfl
  · exact progress.queued
  · obtain ⟨before, responds, carries⟩ := progress.responses
    obtain ⟨new, newResponds, newCarries⟩ := sendBatchInclusionDataResponses_responds documented
      roundTrip client.sink connected
    rw [own, List.reverse_reverse] at newResponds
    exact ⟨before ++ new, List.rel_append responds newResponds,
      List.rel_append carries newCarries⟩

/-- A step other than the answers to a batch tells the client nothing. -/
theorem of_delivery (progress : client.Progress environment config crate cbor system.shared stream
      answered flight waiting upcoming)
    (ordered : client.Ordered environment config)
    (handles : client.Handles environment config system)
    (tidy : client.Tidy environment config system.shared)
    (inTurn : client.InTurn environment config system label) (keeps : client.Keeps after)
    (delivery : Delivery environment system label after) :
    (∃ flight' waiting' upcoming', client.Progress environment config crate cbor after stream
        answered flight' waiting' upcoming') ∧
      ∃ told, after.notices = system.shared.notices ++ told ∧
        ∀ notice ∈ told, notice.proof.messagingSink ≠ some client.sink := by
  cases delivery with
  | lose accepted notices plain leaves queued unanswered =>
      obtain ⟨same, elsewhere⟩ := progress.lose ordered keeps accepted
        (Shared.answered_of_plain notices plain) leaves queued unanswered
      exact ⟨⟨_, _, _, same⟩, _, notices, elsewhere⟩
  | accept adds accepted notices plain leaves queued unanswered =>
      obtain ⟨⟨waiting', upcoming', added⟩, elsewhere⟩ := progress.accept ordered handles inTurn
        keeps adds accepted (Shared.answered_of_plain notices plain) leaves queued unanswered
      exact ⟨⟨_, _, _, added⟩, _, notices, elsewhere⟩
  | @refuse task request original adds stored same refused =>
      obtain ⟨told, notices, toldWhom⟩ := Shared.notify_notices [original] .proofReplaced
        system.shared
      have plain : ∀ notice ∈ told, notice.message.isInclusion = false := by
        intro notice member
        rw [(toldWhom notice member).2]
        rfl
      have elsewhere := progress.refuse ordered handles inTurn adds stored same
      subst refused
      refine ⟨⟨flight, waiting, upcoming, ?_⟩, told, notices, ?_⟩
      · refine progress.of_same rfl (Shared.answered_of_plain notices plain) rfl ?_
        exact fun entry member => (mem_entriesOn.mp member).1
      · intro notice member
        rw [List.mem_singleton.mp (toldWhom notice member).1]
        exact elsewhere
  | extract idle extracted accepted notices unanswered =>
      obtain ⟨extracted⟩ := extracted
      have answers : after.answered = system.shared.answered := by
        rw [Shared.answered, Shared.answered, notices]
      obtain ⟨flight', waiting', taken⟩ := progress.extract ordered tidy keeps idle extracted
        accepted answers unanswered
      refine ⟨⟨_, _, _, taken⟩, [], ?_, by simp⟩
      rw [notices, List.append_nil]
  | restore accepted notices queued unanswered =>
      have answers : after.answered = system.shared.answered := by
        rw [Shared.answered, Shared.answered, notices]
      refine ⟨⟨_, _, _, progress.restore accepted answers queued unanswered⟩, [], ?_, by simp⟩
      rw [notices, List.append_nil]

end Progress

end Progress

end Client

end AlignedLayer
