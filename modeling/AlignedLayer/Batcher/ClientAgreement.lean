import AlignedLayer.Batcher.ClientProgress

/-!
# The client and the batcher agree

When the proofs of a client are all accepted and none is evicted, replaced or
flushed, they are answered in the order in which they were sent, whatever
batches they end up in, and `receive` returns after the answer to the last one.
-/

namespace AlignedLayer

variable {environment : Environment} {config : Config} {client : Client}
  {system next : System} {label : Label} {after : Shared}

namespace Client

/-! ## A whole run -/

/-- The handler of a message of the client works on its request. -/
theorem request_eq {message : SubmitProofMessage} {addr : Address}
    {data : NoncedVerificationData}
    (signed : environment.verifySignature message = some client.address)
    (accepted : validateMessage environment config message = .ok (addr, data)) :
    client.request config message = ⟨addr, data, message.signature, client.sink⟩ := by
  simp only [validateMessage, signed] at accepted
  rw [request, Config.payer]
  split at accepted
  · cases accepted
  · split at accepted
    · cases accepted
    · split at accepted
      · cases accepted
      · cases nonPaying : config.nonPayingConfig with
        | none =>
            simp only [nonPaying] at accepted
            cases accepted
            rfl
        | some configured =>
            simp only [nonPaying] at accepted ⊢
            split at accepted
            · rename_i paidFor
              cases accepted
              simp only [if_pos paidFor]
            · rename_i pays
              cases accepted
              simp only [if_neg pays]

/-- Unless the task of the client adds a proof, no proof of the client is
accepted. -/
theorem acceptedOn_step (handles : client.Handles environment config system)
    (inTurn : client.InTurn environment config system label)
    (delivery : Delivery environment system label after)
    (noneAdded : ∀ request, ¬ Adds system label client.task request) :
    after.acceptedOn client.sink = system.shared.acceptedOn client.sink := by
  cases delivery with
  | lose accepted => rw [Shared.acceptedOn, Shared.acceptedOn, accepted]
  | @accept task request told adds accepted =>
      rcases separate_of_adds adds handles inTurn with ⟨rfl, -⟩ | ⟨-, foreign⟩
      · exact absurd adds (noneAdded request)
      · have elsewhere : entriesOn client.sink [System.newEntry environment request] = [] :=
          entriesOn_eq_nil (by simpa using foreign.1)
        rw [Shared.acceptedOn, Shared.acceptedOn, accepted, entriesOn_append, elsewhere,
          List.append_nil]
  | refuse adds stored same refused => rw [refused]; rfl
  | extract idle extracted accepted => rw [Shared.acceptedOn, Shared.acceptedOn, accepted]
  | restore accepted => rw [Shared.acceptedOn, Shared.acceptedOn, accepted]

theorem Handles.step (handles : client.Handles environment config system)
    (signed : ∀ message ∈ client.messages,
      environment.verifySignature message = some client.address)
    (inTurn : client.InTurn environment config system label)
    (stepped : (batcher environment config).step system label = some next)
    (accepted : (∀ request, ¬ Adds system label client.task request) →
      next.shared.acceptedOn client.sink = system.shared.acceptedOn client.sink) :
    client.Handles environment config next := by
  constructor
  · intro request phase running
    rcases step_request stepped running with
      ⟨⟨earlier, before⟩, noneAdded⟩ | ⟨message, sink, addr, data, rfl, isValid, rfl⟩
    · rw [accepted noneAdded]
      exact handles.own request earlier before
    · obtain ⟨same, isNext⟩ := inTurn
      obtain rfl := same.mp rfl
      have found := isNext rfl
      rw [accepted (fun request adds => by cases adds), proofs, List.getElem?_map, found,
        Option.map_some, request_eq (signed message (List.mem_of_getElem? found)) isValid]
  · intro task request phase running other
    rcases step_request stepped running with
      ⟨⟨earlier, before⟩, -⟩ | ⟨message, sink, addr, data, rfl, isValid, rfl⟩
    · exact handles.others task request earlier before other
    · exact fun same => other (inTurn.1.mpr same)

variable (environment config client) in
/-- What every step of a run in which the client is served preserves. -/
structure Served {Payload : Type} (crate : MerkleTreeCrate VerificationDataCommitment Bytes32)
    (cbor : Sdk.CborCrate Payload) (system : System) (stream : List Payload) : Prop where
  waits : FlushWaits system
  handles : client.Handles environment config system
  tidy : client.Tidy environment config system.shared
  keeps : client.Keeps system.shared
  progress : ∃ answered flight waiting upcoming, client.Progress environment config crate cbor
    system.shared stream answered flight waiting upcoming

namespace Served

variable {Payload : Type} {crate : MerkleTreeCrate VerificationDataCommitment Bytes32}
  {cbor : Sdk.CborCrate Payload} {stream : List Payload}

/-- The answers to a batch. -/
theorem respond {serializationFails : Nat → Bool}
    (served : client.Served environment config crate cbor system stream)
    (documented : crate.Documented (VerificationCommitmentBatch.hashData environment.keccak)
      (VerificationCommitmentBatch.hashNewParent environment.keccak))
    (roundTrip : cbor.Documented) (ordered : client.Ordered environment config)
    (signed : ∀ message ∈ client.messages,
      environment.verifySignature message = some client.address)
    (inTurn : client.InTurn environment config system (.respond serializationFails))
    (undisturbed : client.Undisturbed next)
    (stepped : (batcher environment config).step system (.respond serializationFails) =
      some next) :
    client.Served environment config crate cbor next
      (stream ++ system.sentOn crate cbor client.sink (.respond serializationFails) next) := by
  obtain ⟨answered, flight, waiting, upcoming, progress⟩ := served.progress
  have change := step_change stepped
  have waits := flushWaits_step served.waits stepped
  obtain ⟨batch, current, responded⟩ : ∃ batch, system.shared.batch = some (batch, .responding) ∧
      next.shared = system.shared.respond serializationFails batch := by
    simp only [batcher, System.respond] at stepped
    split at stepped
    · rename_i batch current
      cases stepped
      exact ⟨batch, current, rfl⟩
    · cases stepped
  have serializes := Shared.OfBatch.current inTurn current
  have connected : ∀ entry ∈ batch.entries, entry.messagingSink.isSome = true := by
    intro entry member
    rw [← Shared.unanswered_of_current current (by simp)] at member
    exact served.tidy.connected entry (.inr member)
  obtain ⟨answers, told, notices, inclusions⟩ :=
    progress.respond documented roundTrip served.tidy current serializes
  have sent : system.sentOn crate cbor client.sink (.respond serializationFails) next =
      ((sendBatchInclusionDataResponses crate cbor batch.entries).1.filter
        fun response => response.1 = client.sink).map Prod.snd := by
    rw [← responded] at notices
    rw [System.sentOn, newMessages_onWire cbor undisturbed.1 notices
      (fun notice member _ => inclusions notice member)]
    simp only [System.responsesOn, Label.isRespond, current, if_true, List.nil_append]
  have done := @Shared.respond_eq serializationFails batch system.shared serializes connected
  rw [← responded] at answers done
  refine ⟨waits, ?_, ?_, undisturbed.2, ?_⟩
  · apply served.handles.step signed inTurn stepped
    intro _
    rw [done]
    rfl
  · apply served.tidy.step ordered served.handles inTurn change
    intro entry member
    rw [done] at member
    cases member
  · rw [sent]
    exact ⟨_, _, _, _, answers⟩

theorem step (served : client.Served environment config crate cbor system stream)
    (documented : crate.Documented (VerificationCommitmentBatch.hashData environment.keccak)
      (VerificationCommitmentBatch.hashNewParent environment.keccak))
    (roundTrip : cbor.Documented) (ordered : client.Ordered environment config)
    (signed : ∀ message ∈ client.messages,
      environment.verifySignature message = some client.address)
    (serves : client.Serves environment config system label)
    (stepped : (batcher environment config).step system label = some next) :
    client.Served environment config crate cbor next
      (stream ++ system.sentOn crate cbor client.sink label next) := by
  obtain ⟨inTurn, undisturbed⟩ := serves
  replace undisturbed := undisturbed next stepped
  by_cases responds : label.isRespond = true
  · cases label with
    | respond serializationFails =>
        exact served.respond documented roundTrip ordered signed inTurn undisturbed stepped
    | _ => cases responds
  · obtain ⟨answered, flight, waiting, upcoming, progress⟩ := served.progress
    have notRespond := Bool.eq_false_iff.mpr responds
    have change := step_change stepped
    have delivery := change.delivery served.waits notRespond
    obtain ⟨⟨flight', waiting', upcoming', moved⟩, told, notices, elsewhere⟩ :=
      progress.of_delivery ordered served.handles served.tidy inTurn undisturbed.2 delivery
    have sent : system.sentOn crate cbor client.sink label next = [] := by
      rw [System.sentOn, newMessages_onWire cbor undisturbed.1 notices
        (fun notice member own => absurd own (elsewhere notice member)), System.responsesOn,
        notRespond]
      rfl
    rw [sent, List.append_nil]
    refine ⟨flushWaits_step served.waits stepped, ?_, ?_, undisturbed.2, ⟨_, _, _, _, moved⟩⟩
    · exact served.handles.step signed inTurn stepped
        (acceptedOn_step served.handles inTurn delivery)
    · exact served.tidy.step ordered served.handles inTurn change
        fun entry => delivery.of_unanswered

theorem initial (chain : Chain) (disabledVerifiers lastUploadedBatchBlock : Nat) :
    client.Served environment config crate cbor
      (initialSystem config chain disabledVerifiers lastUploadedBatchBlock) [] := by
  obtain ⟨userStates, cells, nextRef, equation⟩ := Shared.initial_eq config chain
  refine ⟨?_, ?_, ?_, ?_, ?_⟩
  · intro stage flushing
    cases flushing
  · constructor
    · intro request phase running
      cases running
    · intro task request phase running
      cases running
  · simp only [initialSystem, equation]
    constructor
    · intro entry member
      rcases member with queued | inFlight
      · cases queued
      · cases inFlight
    · intro entry member
      rcases member with queued | inFlight
      · cases queued
      · cases inFlight
    · intro stored member
      cases member
  · simp only [initialSystem, equation]
    intro entry member
    cases member
  · refine ⟨[], [], [], client.proofs environment config, ?_⟩
    simp only [initialSystem, equation]
    constructor
    · rfl
    · rfl
    · rfl
    · rfl
    · intro entry member
      cases member
    · exact ⟨[], .nil, .nil⟩

/-- Once all proofs are accepted and none is queued or in flight, all are
answered. -/
theorem all_answered (served : client.Served environment config crate cbor system stream)
    (ordered : client.Ordered environment config)
    (accepted : (system.shared.acceptedOn client.sink).length =
      (client.proofs environment config).length)
    (settled : ∀ entry, entry ∈ system.shared.batchQueue.items ∨ entry ∈ system.shared.unanswered →
      entry.messagingSink ≠ some client.sink) :
    ∃ inclusions, List.Forall₂ (Responds crate) (client.proofs environment config) inclusions ∧
      Sdk.Carries cbor stream inclusions := by
  obtain ⟨answered, flight, waiting, upcoming, progress⟩ := served.progress
  have elsewhere : ∀ {entry}, entry ∈ flight ∨ entry ∈ waiting → False := by
    intro entry member
    have own := ordered.sinks entry (progress.mem_proofs member)
    exact settled entry (progress.stays ordered served.keeps (fun _ member => member) rfl member)
      own
  have nothingFlies : flight = [] :=
    List.eq_nil_iff_forall_not_mem.mpr fun entry member => elsewhere (.inl member)
  have nothingWaits : waiting = [] :=
    List.eq_nil_iff_forall_not_mem.mpr fun entry member => elsewhere (.inr member)
  have nothingComes : upcoming = [] := by
    rw [progress.accepted, progress.proofs] at accepted
    simp only [List.length_append] at accepted
    apply List.length_eq_zero_iff.mp
    omega
  have isAll : client.proofs environment config = answered := by
    rw [progress.proofs, nothingFlies, nothingWaits, nothingComes]
    simp
  rw [isAll]
  exact progress.responses

end Served

section Sent

variable {paymentServiceAddr : Address} {maxFee nonce : Nat} {wallet : Sdk.Wallet}
  {verificationData : List VerificationData}

theorem proofs_of_sent (messages : client.messages =
      (Sdk.noncedData paymentServiceAddr maxFee wallet nonce verificationData).map
        wallet.message) :
    client.proofs environment config =
      (Sdk.noncedData paymentServiceAddr maxFee wallet nonce verificationData).map fun data =>
        System.newEntry environment (client.request config (wallet.message data)) := by
  rw [proofs, messages, List.map_map]
  rfl

/-- The proofs of one submission ascend in their nonces. -/
theorem ordered_of_sent (messages : client.messages =
      (Sdk.noncedData paymentServiceAddr maxFee wallet nonce verificationData).map
        wallet.message) : client.Ordered environment config := by
  have sameFee : ∀ data ∈ Sdk.noncedData paymentServiceAddr maxFee wallet nonce verificationData,
      data.maxFee = maxFee := by
    intro data member
    obtain ⟨index, found⟩ := List.mem_iff_getElem?.mp member
    simp only [Sdk.noncedData, List.getElem?_mapIdx, Option.map_eq_some_iff] at found
    obtain ⟨_, -, rfl⟩ := found
    rfl
  constructor
  · rw [proofs_of_sent messages]
    intro entry member
    obtain ⟨data, -, rfl⟩ := List.mem_map.mp member
    rfl
  · rw [proofs_of_sent messages, List.pairwise_map]
    apply (Sdk.noncedData_ascends verificationData).1.imp_of_mem
    intro earlier later earlierMember laterMember order
    have offers : config.payer client.address earlier.maxFee =
        config.payer client.address later.maxFee := by
      rw [sameFee earlier earlierMember, sameFee later laterMember]
    exact ⟨congrArg Prod.fst offers, congrArg Prod.snd offers, order⟩

/-- What the batcher answers to the entry of a proof answers the proof. -/
theorem answers_of_responds {crate : MerkleTreeCrate VerificationDataCommitment Bytes32}
    {inclusions : List BatchInclusionData}
    (messages : client.messages =
      (Sdk.noncedData paymentServiceAddr maxFee wallet nonce verificationData).map
        wallet.message)
    (responds : List.Forall₂ (Responds crate) (client.proofs environment config) inclusions) :
    List.Forall₂ (Sdk.Answers environment.keccak crate)
      (Sdk.noncedData paymentServiceAddr maxFee wallet nonce verificationData) inclusions := by
  rw [proofs_of_sent messages, List.forall₂_map_left_iff] at responds
  apply responds.imp
  intro data inclusion response
  exact ⟨response.nonce, response.verified⟩

end Sent

end Client

/-- A client whose proofs are all accepted, and answered without a loss, reads
one verified result for each of them, in the order in which it sent them, and
returns after the answer to the last one, neither earlier nor later. -/
theorem client_and_batcher_agree {Payload : Type} (environment : Environment) (config : Config)
    (chain : Chain) (disabledVerifiers lastUploadedBatchBlock : Nat)
    (crate : MerkleTreeCrate VerificationDataCommitment Bytes32)
    (documented : crate.Documented (VerificationCommitmentBatch.hashData environment.keccak)
      (VerificationCommitmentBatch.hashNewParent environment.keccak))
    (cbor : Sdk.CborCrate Payload) (roundTrip : cbor.Documented)
    (sendError : Nat → Option String) (sends : ∀ idx, sendError idx = none)
    (paymentServiceAddr : Address) (maxFee nonce : Nat) (wallet : Sdk.Wallet)
    (verificationData : List VerificationData) (nonempty : verificationData ≠ [])
    (client : Client)
    (messages : client.messages = (Sdk.sendMessages cbor sendError paymentServiceAddr maxFee
      wallet nonce verificationData).1)
    (signed : ∀ message ∈ client.messages,
      environment.verifySignature message = some client.address)
    (labels : List Label) (finish : System)
    (meets : (batcher environment config).Meets (client.Serves environment config)
      (initialSystem config chain disabledVerifiers lastUploadedBatchBlock) labels)
    (ran : (batcher environment config).run
      (initialSystem config chain disabledVerifiers lastUploadedBatchBlock) labels =
        some finish)
    (accepted : (finish.shared.acceptedOn client.sink).length = verificationData.length)
    (settled : ∀ entry, entry ∈ finish.shared.batchQueue.items ∨
      entry ∈ finish.shared.unanswered → entry.messagingSink ≠ some client.sink) :
    let stored := (Sdk.sendMessages cbor sendError paymentServiceAddr maxFee wallet nonce
      verificationData).2
    let stream := (batcher environment config).outputs (System.sentOn crate cbor client.sink)
      (initialSystem config chain disabledVerifiers lastUploadedBatchBlock) labels
    ∃ results : List Sdk.AlignedVerificationData,
      results.length = verificationData.length ∧
      (∀ index data, verificationData[index]? = some data →
        ∃ inclusion : BatchInclusionData,
          results[index]? = some
            (.new (.ofVerificationData environment.keccak data) inclusion) ∧
          inclusion.userNonce = nonce + index ∧
          verifyProofInclusion crate (.ofVerificationData environment.keccak data)
            inclusion = true) ∧
      (∀ unread, Sdk.receive environment.keccak crate cbor
        (Sdk.delivered stream ++ unread) stored = ⟨results.map .ok, true, unread⟩) ∧
      ∀ count < verificationData.length, Sdk.receive environment.keccak crate cbor
        (Sdk.delivered (stream.take count)) stored =
          ⟨(results.take count).map .ok, false, []⟩ := by
  intro stored stream
  have sent := @Sdk.sendMessages_eq _ _ _ paymentServiceAddr maxFee nonce wallet roundTrip sends
    verificationData
  rw [sent] at messages
  have ordered : client.Ordered environment config := Client.ordered_of_sent messages
  have served : client.Served environment config crate cbor finish stream := by
    apply Machine.run_outputs ?_ (Client.Served.initial chain _ _) meets ran
    intro state next label seen before serves stepped
    exact before.step documented roundTrip ordered signed serves stepped
  have length : (client.proofs environment config).length = verificationData.length := by
    rw [Client.proofs_of_sent messages, List.length_map, Sdk.length_noncedData]
  obtain ⟨inclusions, responds, carries⟩ :=
    served.all_answered ordered (accepted.trans length.symm) settled
  have answers := Client.answers_of_responds messages responds
  have storedEq : stored = ((Sdk.noncedData paymentServiceAddr maxFee wallet nonce
      verificationData).map .ok).reverse := congrArg Prod.snd sent
  rw [storedEq]
  exact Sdk.receive_noncedData nonempty answers carries

namespace Sample

/-- A codec that only tells requests and responses apart. -/
def cbor : Sdk.CborCrate (Sdk.ClientMessage ⊕ Sdk.SubmitProofResponseMessage) where
  serializeRequest message := some (.inl message)
  serializeResponse message := some (.inr message)
  deserializeResponse
    | .inl _ => none
    | .inr message => some message

def wallet : Sdk.Wallet where
  chainId := 1
  sign _ := ⟨1, 0, 0⟩

/-- A client that sends two proofs. -/
def submitter : Client where
  task := 0
  sink := 1
  address := 1
  messages := (Sdk.sendMessages cbor (fun _ => none) 0 1000000 wallet 0
    [verificationData, verificationData]).1

/-- The first proof is in a batch with one of another user, the second is
accepted while this batch is in flight. -/
def splitBatches : List Label :=
  firstProof 0 1 0 1000000 ++ firstProof 2 2 0 1000000 ++ sendBatch ++
    nextProof 0 1 1 1000000 ++ closeBatch 0 [2, 1] ++ sendBatch ++ closeBatch 1 [1]

end Sample

theorem client_and_batcher_agree_split :
    ∃ results : List Sdk.AlignedVerificationData, results.length = 2 ∧
      ∀ unread, Sdk.receive Sample.environment.keccak
        (.reference (VerificationCommitmentBatch.hashData Sample.environment.keccak)
          (VerificationCommitmentBatch.hashNewParent Sample.environment.keccak)) Sample.cbor
        (Sdk.delivered ((batcher Sample.environment (Sample.config 10)).outputs
          (System.sentOn (.reference (VerificationCommitmentBatch.hashData
            Sample.environment.keccak) (VerificationCommitmentBatch.hashNewParent
            Sample.environment.keccak)) Sample.cbor 1)
          (Sample.system 10 100000000) Sample.splitBatches) ++ unread)
        (Sdk.sendMessages Sample.cbor (fun _ => none) 0 1000000 Sample.wallet 0
          [Sample.verificationData, Sample.verificationData]).2 =
            ⟨results.map .ok, true, unread⟩ := by
  have found : ((batcher Sample.environment (Sample.config 10)).run
      (Sample.system 10 100000000) Sample.splitBatches).any (fun finish =>
        decide ((finish.shared.acceptedOn 1).length = 2) &&
          decide (finish.shared.batchQueue.items ++ finish.shared.unanswered = [])) = true := by
    decide +kernel
  obtain ⟨finish, ran, facts⟩ := (Option.any_eq_true _ _).mp found
  simp only [Bool.and_eq_true, decide_eq_true_eq] at facts
  obtain ⟨accepted, settled⟩ := facts
  have nothingLeft : ∀ entry, entry ∈ finish.shared.batchQueue.items ∨
      entry ∈ finish.shared.unanswered → entry.messagingSink ≠ some Sample.submitter.sink := by
    intro entry member
    rw [← List.mem_append, settled] at member
    cases member
  have documented := MerkleTreeCrate.reference_documented
    (VerificationCommitmentBatch.hashData Sample.environment.keccak)
    (VerificationCommitmentBatch.hashNewParent Sample.environment.keccak)
  obtain ⟨results, length, -, received, -⟩ := client_and_batcher_agree Sample.environment
    (Sample.config 10) (Sample.chain 100000000) 0 0 _ documented Sample.cbor
    ⟨fun _ => rfl, fun _ => ⟨_, rfl, rfl⟩⟩ (fun _ => none) (fun _ => rfl) 0 1000000 0
    Sample.wallet [Sample.verificationData, Sample.verificationData] (by simp) Sample.submitter rfl
    (by decide +kernel) Sample.splitBatches finish (by decide +kernel) ran accepted nothingLeft
  exact ⟨results, length, received⟩

end AlignedLayer
