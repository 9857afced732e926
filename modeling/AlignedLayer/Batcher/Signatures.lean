import AlignedLayer.Batcher.ClientProgress
import AlignedLayer.Batcher.Queued
import AlignedLayer.Batcher.Submissions
import AlignedLayer.Library.CollisionFree
import AlignedLayer.Library.Keccak256
import AlignedLayer.Sdk.Signing

/-!
# Only what was signed is charged

A handler works on a message whose signature it has checked, and only handlers
make entries.  So whatever the batcher queues, sends or is charged for on the
chain goes back to a message, and for a user whose signatures nobody forges, to
something the user has signed for this chain and this contract.
-/

namespace AlignedLayer

/-! ## Messages and what is made of them -/

/-- One of the messages passes the validations with this address, data and
signature. -/
def Attested (environment : Environment) (config : Config) (received : List SubmitProofMessage)
    (addr : Address) (data : NoncedVerificationData) (signature : Signature) : Prop :=
  ∃ message ∈ received,
    validateMessage environment config message = .ok (addr, data) ∧
      message.signature = signature

namespace BatchQueueEntry

/-- The entry is made of one of the messages. -/
structure IsAttested (environment : Environment) (config : Config)
    (received : List SubmitProofMessage) (entry : BatchQueueEntry) : Prop where
  attested : Attested environment config received entry.sender entry.noncedVerificationData
    entry.signature
  commitment : entry.verificationDataCommitment =
    entry.noncedVerificationData.commitment environment.keccak

end BatchQueueEntry

/-- The call charges the senders of the entries and commits to their proofs,
and every entry is made of one of the messages. -/
structure BatchAttested (environment : Environment) (config : Config)
    (received : List SubmitProofMessage) (entries : List BatchQueueEntry)
    (call : BatcherPaymentService.CreateNewTask) : Prop where
  attested : ∀ entry ∈ entries, entry.IsAttested environment config received
  proofSubmitters : call.proofSubmitters = entries.map BatchQueueEntry.sender
  batchMerkleRoot : call.batchMerkleRoot =
    environment.merkleRoot (entries.map BatchQueueEntry.verificationDataCommitment)

/-- Every transaction of the batcher that was not dropped. -/
def Chain.transactions (chain : Chain) : List Transaction :=
  chain.pending ++ chain.included.map Prod.fst

structure AllAttested (environment : Environment) (config : Config)
    (received : List SubmitProofMessage) (system : System) : Prop where
  handlers : ∀ task request phase, system.handlers task = some (request, phase) →
    Attested environment config received request.addr request.noncedVerificationData
      request.signature
  queued : ∀ entry ∈ system.shared.batchQueue.items, entry.IsAttested environment config received
  batch : ∀ batch stage, system.shared.batch = some (batch, stage) →
    BatchAttested environment config received batch.entries batch.call
  transactions : ∀ transaction ∈ system.shared.chain.transactions,
    BatchAttested environment config received transaction.entries transaction.call

def Label.received : Label → List SubmitProofMessage
  | .receive _ message _ => [message]
  | _ => []

variable {environment : Environment} {config : Config} {system next : System} {label : Label}
  {after : Shared} {received more : List SubmitProofMessage}

theorem Attested.append {addr : Address} {data : NoncedVerificationData} {signature : Signature}
    (attested : Attested environment config received addr data signature) :
    Attested environment config (received ++ more) addr data signature := by
  obtain ⟨message, member, accepted⟩ := attested
  exact ⟨message, List.mem_append_left _ member, accepted⟩

theorem BatchQueueEntry.IsAttested.append {entry : BatchQueueEntry}
    (attested : entry.IsAttested environment config received) :
    entry.IsAttested environment config (received ++ more) :=
  ⟨attested.attested.append, attested.commitment⟩

theorem BatchAttested.append {entries : List BatchQueueEntry}
    {call : BatcherPaymentService.CreateNewTask}
    (attested : BatchAttested environment config received entries call) :
    BatchAttested environment config (received ++ more) entries call where
  attested entry member := (attested.attested entry member).append
  proofSubmitters := attested.proofSubmitters
  batchMerkleRoot := attested.batchMerkleRoot

/-! ## What a step makes -/

/-- A transaction was there before, or is sent for the batch in flight. -/
theorem Change.mem_transactions (change : Change environment config system label after)
    {transaction : Transaction} (member : transaction ∈ after.chain.transactions) :
    transaction ∈ system.shared.chain.transactions ∨
      ∃ batch stage answer, system.shared.batch = some (batch, stage) ∧
        (label = .send answer ∨ label = .sendFallback answer) ∧
        transaction.batchNumber = batch.number ∧ transaction.entries = batch.entries ∧
        transaction.call = batch.call := by
  cases change with
  | evict running full found removed =>
      obtain ⟨userStates, cells, rfl⟩ := Shared.evict_eq_ok removed
      exact .inl member
  | evictPanics running full found removed =>
      obtain ⟨userStates, cells, rfl⟩ := Shared.evict_eq_error removed
      exact .inl member
  | @extract layout gasPrice blockNumber idle =>
      rcases Shared.extract_cases environment config layout
        (gasPrice * gasPricePercentageMultiplier / percentageDivider) blockNumber system.shared
        with ⟨rest, -, equation⟩ | ⟨entries, rest, -, equation⟩
      · rw [equation] at member
        exact .inl member
      · rw [equation] at member
        exact .inl member
  | @send answer label batch stage later labelled current unsent answered =>
      simp only [Shared.enter, Shared.broadcast, Chain.broadcast, Chain.transactions,
        List.mem_append, List.mem_singleton] at member
      rcases member with (pending | rfl) | included
      · exact .inl (List.mem_append_left _ pending)
      · exact .inr ⟨batch, stage, answer, current, labelled, rfl, rfl, rfl⟩
      · exact .inl (List.mem_append_right _ included)
  | @updateUser layout address batch users current inUsers free =>
      obtain ⟨cells, same⟩ := Shared.updateUser_eq layout address system.shared
      rw [same] at member
      exact .inl member
  | @updateRestoredUser layout address batch users current inUsers free =>
      obtain ⟨cells, same⟩ := Shared.updateUser_eq layout address system.shared
      rw [same] at member
      exact .inl member
  | @cleanupUser layout address batch users current free =>
      obtain ⟨cells, same⟩ := Shared.cleanupUser_eq layout address system.shared
      rw [same] at member
      exact .inl member
  | restore current ran =>
      obtain ⟨queue, users, lost, rfl, -⟩ := Shared.restore_eq_some ran
      exact .inl member
  | @flushAndReset label origin stage labelled flushing =>
      rw [Shared.afterFlush_chain] at member
      exact .inl member
  | insertNonpaying flushing configured =>
      rw [Shared.afterFlush_chain] at member
      exact .inl member
  | mine mined =>
      obtain ⟨executed, inPending, -, pending, -, outcome⟩ := Chain.mine_eq_some mined
      left
      obtain ⟨success, included⟩ : ∃ success, _ =
          system.shared.chain.included ++ [(executed, success)] := by
        rcases outcome with ⟨service, manager, -, -, included⟩ | ⟨-, included⟩
        · exact ⟨true, included⟩
        · exact ⟨false, included⟩
      simp only [Chain.transactions, included, pending, List.map_append, List.map_cons,
        List.map_nil, List.mem_append, List.mem_singleton] at member
      rcases member with stillPending | before | rfl
      · exact List.mem_append_left _ (List.mem_filter.mp stillPending).1
      · exact List.mem_append_right _ before
      · exact List.mem_append_left _ inPending
  | dropTransaction =>
      simp only [Chain.drop, Chain.transactions, List.mem_append] at member
      rcases member with stillPending | before
      · exact .inl (List.mem_append_left _ (List.mem_filter.mp stillPending).1)
      · exact .inl (List.mem_append_right _ before)
  | userCall called =>
      rw [Chain.userCall_eq_some called] at member
      exact .inl member
  | _ => exact .inl member

theorem Queues.isAttested (attested : AllAttested environment config received system)
    {entry : BatchQueueEntry} (queues : Queues environment system label entry) :
    entry.IsAttested environment config received := by
  cases queues with
  | enqueue running => exact ⟨attested.handlers _ _ _ running, rfl⟩
  | replace running stored =>
      obtain ⟨-, key⟩ := BatchState.getEntry_eq_some stored
      have sender := congrArg Prod.fst key
      simp only [BatchQueueEntry.key] at sender
      refine ⟨?_, rfl⟩
      simp only [System.replacementEntry, sender]
      exact attested.handlers _ _ _ running
  | restore current member => exact (attested.batch _ _ current).attested _ member

theorem allAttested_step (attested : AllAttested environment config received system)
    (stepped : (batcher environment config).step system label = some next) :
    AllAttested environment config (received ++ label.received) next where
  handlers task request phase running := by
    rcases step_request stepped running with ⟨⟨earlier, before⟩, -⟩ |
      ⟨message, sink, addr, data, rfl, accepted, rfl⟩
    · exact (attested.handlers _ _ _ before).append
    · exact ⟨message, List.mem_append_right _ (List.mem_singleton.mpr rfl), accepted, rfl⟩
  queued entry member := by
    rcases (step_change stepped).queued member with before | queues
    · exact (attested.queued entry before).append
    · exact (queues.isAttested attested).append
  batch batch stage current := by
    rcases (step_change stepped).batch_origin current with
      ⟨earlier, before⟩ | ⟨gasPrice, ⟨extracted⟩, call⟩
    · exact (attested.batch _ _ before).append
    · refine ⟨?_, by rw [call]; rfl, by rw [call]; rfl⟩
      intro entry member
      have queued := (Shared.items_of_extracted extracted).mem_iff.mpr
        (List.mem_append_left _ member)
      exact (attested.queued entry queued).append
  transactions transaction member := by
    rcases (step_change stepped).mem_transactions member with
      before | ⟨batch, stage, answer, current, -, -, entries, call⟩
    · exact (attested.transactions _ before).append
    · rw [entries, call]
      exact (attested.batch _ _ current).append

theorem allAttested_initial {chain : Chain} (fresh : chain.Fresh)
    (disabledVerifiers lastUploadedBatchBlock : Nat) :
    AllAttested environment config []
      (initialSystem config chain disabledVerifiers lastUploadedBatchBlock) := by
  obtain ⟨userStates, cells, nextRef, equation⟩ := Shared.initial_eq config chain
  refine ⟨?_, ?_, ?_, ?_⟩
  · intro task request phase running
    cases running
  · intro entry member
    simp only [initialSystem, equation] at member
    cases member
  · intro batch stage current
    simp only [initialSystem, equation] at current
    cases current
  · intro transaction member
    simp only [initialSystem, equation, Shared.empty, Chain.transactions, fresh.pending,
      fresh.included] at member
    cases member

theorem allAttested_run {finish : System} {labels : List Label}
    (attested : AllAttested environment config received system)
    (ran : (batcher environment config).run system labels = some finish) :
    AllAttested environment config (received ++ labels.flatMap Label.received) finish := by
  induction labels generalizing system received with
  | nil =>
      simp only [Machine.run, Option.some.injEq] at ran
      rw [List.flatMap_nil, List.append_nil]
      exact ran ▸ attested
  | cons label labels induction =>
      obtain ⟨next, stepped, rest⟩ := Option.bind_eq_some_iff.mp ran
      rw [List.flatMap_cons, ← List.append_assoc]
      exact induction (allAttested_step attested stepped) rest

/-! ## What users sign -/

/-- A signature of the data is a signature for this entry, on the chain and
the contract of the batcher. -/
structure NoncedVerificationData.Authorizes (environment : Environment) (config : Config)
    (data : NoncedVerificationData) (entry : BatchQueueEntry) : Prop where
  chainId : data.chainId = config.chainId
  paymentServiceAddr : data.paymentServiceAddr = config.paymentServiceAddr
  nonce : data.nonce = entry.nonce
  maxFee : data.maxFee = entry.maxFee
  commitment : data.commitment environment.keccak = entry.verificationDataCommitment

/-- Unless the non-paying address sent it, a message goes on as it is under the
address that signed it. -/
theorem validateMessage_ok {message : SubmitProofMessage} {addr : Address}
    {data : NoncedVerificationData} (pays : config.nonpayingReplacementAddr ≠ some addr)
    (accepted : validateMessage environment config message = .ok (addr, data)) :
    data = message.verificationData ∧ data.chainId = config.chainId ∧
      data.paymentServiceAddr = config.paymentServiceAddr ∧
      environment.verifySignature message = some addr := by
  simp only [validateMessage] at accepted
  split at accepted
  · cases accepted
  · rename_i sameChain
    split at accepted
    · cases accepted
    · rename_i sameContract
      split at accepted
      · cases accepted
      · have chainId := not_not.mp sameChain
        have contract := not_not.mp sameContract
        split at accepted
        · cases accepted
        · rename_i signer recovered
          split at accepted
          · cases accepted
            exact ⟨rfl, chainId, contract, recovered⟩
          · rename_i nonPaying configured
            split at accepted
            · cases accepted
              exact absurd (by simp [Config.nonpayingReplacementAddr, configured]) pays
            · cases accepted
              exact ⟨rfl, chainId, contract, recovered⟩

/-- An entry of a user whose signatures are not forged was signed by it. -/
theorem BatchQueueEntry.IsAttested.authorized {entry : BatchQueueEntry} {user : Address}
    {recover : Bytes32 → Signature → Option Address} {signed : List NoncedVerificationData}
    (verifies : ∀ message, environment.verifySignature message =
      message.verifySignature environment.keccak recover)
    (pays : config.nonpayingReplacementAddr ≠ some user)
    (signedRange : ∀ data ∈ signed, data.InRange)
    (receivedRange : ∀ message ∈ received, message.verificationData.InRange)
    (free : Set.InjOn environment.keccak
      {bytes | ∃ data ∈ signed ++ received.map SubmitProofMessage.verificationData,
        bytes ∈ data.signingMessages environment.keccak})
    (unforged : ∀ message ∈ received,
      recover (message.verificationData.encodeEip712 environment.keccak) message.signature =
        some user →
      ∃ data ∈ signed, data.encodeEip712 environment.keccak =
        message.verificationData.encodeEip712 environment.keccak)
    (attested : entry.IsAttested environment config received) (own : entry.sender = user) :
    ∃ data ∈ signed, data.Authorizes environment config entry := by
  obtain ⟨message, member, accepted, -⟩ := attested.attested
  rw [own] at accepted
  obtain ⟨same, chainId, contract, verified⟩ := validateMessage_ok pays accepted
  rw [verifies, SubmitProofMessage.verifySignature_eq] at verified
  obtain ⟨data, isSigned, sameHash⟩ := unforged message member verified
  have signedAs : data.SignedAs environment.keccak message.verificationData := by
    apply NoncedVerificationData.signedAs_of_encodeEip712_eq free (signedRange data isSigned)
      (receivedRange message member) _ _ sameHash
    · intro bytes inSigned
      exact ⟨data, List.mem_append_left _ isSigned, inSigned⟩
    · intro bytes inReceived
      exact ⟨message.verificationData,
        List.mem_append_right _ (List.mem_map_of_mem member), inReceived⟩
  rw [← same] at signedAs
  refine ⟨data, isSigned, ?_⟩
  exact {
    chainId := signedAs.chainId.trans chainId
    paymentServiceAddr := signedAs.paymentServiceAddr.trans contract
    nonce := signedAs.nonce
    maxFee := signedAs.maxFee
    commitment := signedAs.commitment.trans attested.commitment.symm }

/-- In every run, whatever is queued, in flight or sent to the chain for a user
whose signatures are not forged was signed by the user, with this nonce, fee
and proof, for this chain and this contract; and a transaction charges nobody
but the senders of the proofs it commits to. -/
theorem charged_only_if_signed (environment : Environment) (config : Config) (chain : Chain)
    (fresh : chain.Fresh) (disabledVerifiers lastUploadedBatchBlock : Nat)
    (recover : Bytes32 → Signature → Option Address)
    (verifies : ∀ message, environment.verifySignature message =
      message.verifySignature environment.keccak recover)
    (user : Address) (pays : config.nonpayingReplacementAddr ≠ some user)
    (signed : List NoncedVerificationData) (labels : List Label) (finish : System)
    (signedRange : ∀ data ∈ signed, data.InRange)
    (receivedRange : ∀ message ∈ labels.flatMap Label.received, message.verificationData.InRange)
    (free : Set.InjOn environment.keccak
      {bytes | ∃ data ∈ signed ++
          (labels.flatMap Label.received).map SubmitProofMessage.verificationData,
        bytes ∈ data.signingMessages environment.keccak})
    (unforged : ∀ message ∈ labels.flatMap Label.received,
      recover (message.verificationData.encodeEip712 environment.keccak) message.signature =
        some user →
      ∃ data ∈ signed, data.encodeEip712 environment.keccak =
        message.verificationData.encodeEip712 environment.keccak)
    (ran : (batcher environment config).run
      (initialSystem config chain disabledVerifiers lastUploadedBatchBlock) labels =
        some finish) :
    (∀ entry ∈ finish.shared.batchQueue.items, entry.sender = user →
      ∃ data ∈ signed, data.Authorizes environment config entry) ∧
    (∀ batch stage, finish.shared.batch = some (batch, stage) →
      ∀ entry ∈ batch.entries, entry.sender = user →
        ∃ data ∈ signed, data.Authorizes environment config entry) ∧
    ∀ transaction ∈ finish.shared.chain.transactions,
      transaction.call.proofSubmitters = transaction.entries.map BatchQueueEntry.sender ∧
      transaction.call.batchMerkleRoot = environment.merkleRoot
        (transaction.entries.map BatchQueueEntry.verificationDataCommitment) ∧
      ∀ entry ∈ transaction.entries, entry.sender = user →
        ∃ data ∈ signed, data.Authorizes environment config entry := by
  have attested := allAttested_run
    (allAttested_initial fresh disabledVerifiers lastUploadedBatchBlock) ran
  rw [List.nil_append] at attested
  have authorized : ∀ {entry : BatchQueueEntry},
      entry.IsAttested environment config (labels.flatMap Label.received) →
      entry.sender = user → ∃ data ∈ signed, data.Authorizes environment config entry :=
    fun isAttested own =>
      isAttested.authorized verifies pays signedRange receivedRange free unforged own
  refine ⟨?_, ?_, ?_⟩
  · intro entry member
    exact authorized (attested.queued entry member)
  · intro batch stage current entry member
    exact authorized ((attested.batch batch stage current).attested entry member)
  · intro transaction member
    have batch := attested.transactions transaction member
    refine ⟨batch.proofSubmitters, batch.batchMerkleRoot, ?_⟩
    intro entry inEntries
    exact authorized (batch.attested entry inEntries)

/-- The signer is written into the signature. -/
def Sample.recover (_ : Bytes32) (signature : Signature) : Option Address :=
  some (BitVec.ofNat 160 signature.r)

def Sample.hashingEnvironment : Environment where
  keccak := Keccak256.keccak256
  merkleRoot := Sample.environment.merkleRoot
  verifySignature := SubmitProofMessage.verifySignature Keccak256.keccak256 Sample.recover

/-- Two users have a proof in a batch, and the first one has a second proof
queued. -/
def Sample.twoUsers : List Label :=
  firstProof 0 1 0 1000000 ++ firstProof 1 2 0 900000 ++ sendBatch ++
    nextProof 2 1 1 800000 ++ closeBatch 0 [1, 2]

/-- What the first of them has signed. -/
def Sample.signedByFirst : List NoncedVerificationData :=
  [Sample.noncedVerificationData 0 1000000, Sample.noncedVerificationData 1 800000]

theorem Sample.injOn_twoUsers : Set.InjOn Keccak256.keccak256
    {bytes | ∃ data ∈ Sample.signedByFirst ++
        (Sample.twoUsers.flatMap Label.received).map SubmitProofMessage.verificationData,
      bytes ∈ data.signingMessages Keccak256.keccak256} := by
  have free : Set.InjOn Keccak256.keccak256 {bytes | bytes ∈
      (Sample.noncedVerificationData 0 900000 :: Sample.signedByFirst).flatMap
        (NoncedVerificationData.signingMessages Keccak256.keccak256)} :=
    injOn_of_nodup (fun message isMessage => List.mem_dedup.mpr isMessage) (by decide +kernel)
  have known : ∀ data ∈ Sample.signedByFirst ++
      (Sample.twoUsers.flatMap Label.received).map SubmitProofMessage.verificationData,
      data ∈ Sample.noncedVerificationData 0 900000 :: Sample.signedByFirst := by
    decide +kernel
  apply free.mono
  intro bytes isHashed
  obtain ⟨data, isKnown, hashes⟩ := isHashed
  exact List.mem_flatMap.mpr ⟨data, known data isKnown, hashes⟩

theorem Sample.unforged_twoUsers : ∀ message ∈ Sample.twoUsers.flatMap Label.received,
    Sample.recover (message.verificationData.encodeEip712 Keccak256.keccak256)
        message.signature = some 1 →
      ∃ data ∈ Sample.signedByFirst, data.encodeEip712 Keccak256.keccak256 =
        message.verificationData.encodeEip712 Keccak256.keccak256 := by
  have own : ∀ message ∈ Sample.twoUsers.flatMap Label.received,
      Sample.recover Bytes32.zero message.signature = some 1 →
      message.verificationData ∈ Sample.signedByFirst := by decide +kernel
  intro message member recovered
  have signer : Sample.recover Bytes32.zero message.signature = some 1 := by
    rw [Sample.recover] at recovered ⊢
    exact recovered
  exact ⟨_, own message member signer, rfl⟩

theorem charged_only_if_signed_twoUsers :
    ∃ finish, (batcher Sample.hashingEnvironment (Sample.config 4)).run
        (Sample.system 4 100000000) Sample.twoUsers = some finish ∧
      ∀ transaction ∈ finish.shared.chain.transactions,
        ∀ entry ∈ transaction.entries, entry.sender = 1 →
          ∃ data ∈ Sample.signedByFirst,
            data.Authorizes Sample.hashingEnvironment (Sample.config 4) entry := by
  have runs : ((batcher Sample.hashingEnvironment (Sample.config 4)).run
      (Sample.system 4 100000000) Sample.twoUsers).isSome = true := by
    decide +kernel
  obtain ⟨finish, ran⟩ := Option.isSome_iff_exists.mp runs
  refine ⟨finish, ran, ?_⟩
  intro transaction member
  have signed := charged_only_if_signed Sample.hashingEnvironment (Sample.config 4)
    (Sample.chain 100000000) ⟨rfl, rfl⟩ 0 0 Sample.recover (fun _ => rfl) 1
    (by decide) Sample.signedByFirst Sample.twoUsers finish
    (by decide +kernel) (by decide +kernel) Sample.injOn_twoUsers Sample.unforged_twoUsers ran
  exact (signed.2.2 transaction member).2.2

end AlignedLayer
