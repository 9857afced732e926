import AlignedLayer.Batcher.Restoration

/-!
# Replacing a queued proof

The exits of `handle_replacement_message`, and what the one that replaces the
entry does to the user's entries and counters.
-/

namespace AlignedLayer

namespace Config

/-- The lowest fee of a replacement. -/
def minBump (config : Config) (original : BatchQueueEntry) : Nat :=
  original.maxFee + original.maxFee * config.minBumpPercentage / 100

/-- The product or the sum leaves the range of a `U256`. -/
def BumpOverflows (config : Config) (original : BatchQueueEntry) : Prop :=
  original.maxFee * config.minBumpPercentage > u256Max ∨ config.minBump original > u256Max

instance (config : Config) (original : BatchQueueEntry) :
    Decidable (config.BumpOverflows original) :=
  inferInstanceAs (Decidable (_ ∨ _))

end Config

/-! ## The exits -/

section Exits

variable (environment : Environment) (config : Config) (system : System) (task : TaskId)
  (verifier : VerifierCall → Bool) (request : Request) (ref : Ref)

/-- The entry a replacement message is about. -/
def System.storedEntry : Option BatchQueueEntry :=
  BatchState.getEntry system.shared.batchQueue request.addr request.noncedVerificationData.nonce

/-- The replacement gets to the check against the neighbours. -/
structure System.PassesChecks (original : BatchQueueEntry) : Prop where
  stored : system.storedEntry request = some original
  inRange : ¬ config.BumpOverflows original
  bumped : config.minBump original ≤ request.noncedVerificationData.maxFee
  verified : System.proofRefusal config verifier request.noncedVerificationData.verificationData
    system = none

/-- How the handler ends once it has the lock of the queue. -/
inductive System.ReplaceEnds : System → Prop where
  | notQueued (missing : system.storedEntry request = none) :
      ReplaceEnds (system.reject task request .invalidNonce)
  | overflows {original : BatchQueueEntry} (stored : system.storedEntry request = some original)
      (overflow : config.BumpOverflows original) :
      ReplaceEnds (system.finish task)
  | underpriced {original : BatchQueueEntry}
      (stored : system.storedEntry request = some original)
      (inRange : ¬ config.BumpOverflows original)
      (low : request.noncedVerificationData.maxFee < config.minBump original) :
      ReplaceEnds (system.reject task request .underpricedProof)
  | refused {original : BatchQueueEntry} {reason : ProofInvalidReason}
      (stored : system.storedEntry request = some original)
      (inRange : ¬ config.BumpOverflows original)
      (bumped : config.minBump original ≤ request.noncedVerificationData.maxFee)
      (refusal : System.proofRefusal config verifier
        request.noncedVerificationData.verificationData system = some reason) :
      ReplaceEnds (system.reject task request (.invalidProof reason))
  | invalid {original : BatchQueueEntry}
      (passed : system.PassesChecks config verifier request original)
      (invalid : BatchState.replacementEntryIsValid system.shared.batchQueue
        (System.replacementEntry environment request original) = false) :
      ReplaceEnds ((system.withShared (system.shared.notify [original] .proofReplaced)).reject
        task request .invalidReplacementMessage)
  | replaced {original : BatchQueueEntry}
      (passed : system.PassesChecks config verifier request original)
      (valid : BatchState.replacementEntryIsValid system.shared.batchQueue
        (System.replacementEntry environment request original) = true) :
      ReplaceEnds ((system.withShared
        ((system.shared.notify [original] .proofReplaced).replaceEntry ref original
          (System.replacementEntry environment request original))).finish task)

variable {environment config system task verifier request ref}

theorem System.replace_ends {balance : Nat} {next : System}
    (running : system.handlers task = some (request, .replace ref balance))
    (stepped : system.replace environment config task verifier = some next) :
    system.ReplaceEnds environment config task verifier request ref next := by
  rw [System.replace, running] at stepped
  dsimp only at stepped
  split at stepped
  · cases stepped
  · split at stepped
    · next missing =>
        cases stepped
        exact .notQueued missing
    · next original stored =>
        split at stepped
        · next overflow =>
            cases stepped
            exact .overflows stored overflow
        · next inRange =>
            split at stepped
            · next low =>
                cases stepped
                exact .underpriced stored inRange low
            · next enough =>
                have bumped := Nat.not_lt.mp enough
                split at stepped
                · next reason refusal =>
                    cases stepped
                    exact .refused stored inRange bumped refusal
                · next verified =>
                    have passed : system.PassesChecks config verifier request original :=
                      ⟨stored, inRange, bumped, verified⟩
                    split at stepped
                    · next valid =>
                        cases stepped
                        exact .replaced passed valid
                    · next invalid =>
                        cases stepped
                        exact .invalid passed (Bool.not_eq_true _ ▸ invalid)

end Exits

/-! ## The queue with the replacement -/

section Queue

variable {queue : BatchQueue} {original replacement : BatchQueueEntry}
  {priority : BatchQueueEntryPriority}

/-- `remove` and `push` of the replacement. -/
abbrev BatchQueue.replace (queue : BatchQueue) (replacement : BatchQueueEntry)
    (priority : BatchQueueEntryPriority) : BatchQueue :=
  (queue.erase replacement.key).push replacement priority

theorem mem_replace {stored : BatchQueueEntry × BatchQueueEntryPriority} :
    stored ∈ (queue.replace replacement priority).entries ↔
      stored = (replacement, priority) ∨
        stored ∈ queue.entries ∧ stored.1.key ≠ replacement.key := by
  have absent : ∀ other ∈ (queue.erase replacement.key).entries, other.1.key ≠ replacement.key :=
    fun other member => (PriorityQueue.mem_erase.mp member).2
  rw [(PriorityQueue.push_perm absent priority).mem_iff, List.mem_cons, PriorityQueue.mem_erase]

theorem keys_replace_perm (queued : original ∈ queue.items)
    (same : replacement.key = original.key) :
    ((queue.replace replacement priority).items.map BatchQueueEntry.key).Perm
      (queue.items.map BatchQueueEntry.key) := by
  have before := (items_erase_perm queued).map BatchQueueEntry.key
  have after := (@items_replace_perm queue priority _ _ same).map BatchQueueEntry.key
  rw [List.map_cons] at before after
  rw [same] at after
  rw [BatchQueue.replace, same]
  exact after.trans before.symm

/-- The sender's entries before and after differ in one entry. -/
theorem entriesOf_replace (priority : BatchQueueEntryPriority) (queued : original ∈ queue.items)
    (same : replacement.key = original.key) :
    ∃ rest, (∀ entry ∈ rest, entry ∈ queue.entriesOf replacement.sender) ∧
      (queue.entriesOf replacement.sender).Perm (original :: rest) ∧
      ((queue.replace replacement priority).entriesOf replacement.sender).Perm
        (replacement :: rest) := by
  have sender : original.sender = replacement.sender := (congrArg Prod.fst same).symm
  have before := entriesOf_of_cons (items_erase_perm queued)
  have after := entriesOf_of_cons (@items_replace_perm queue priority _ _ same)
  rw [sender] at before
  refine ⟨_, ?_, before, after⟩
  intro entry member
  exact before.mem_iff.mpr (List.mem_cons_of_mem _ member)

end Queue

/-- A higher fee keeps the order, as long as no lower nonce pays less. -/
theorem InNonceOrder.replace {original replacement : BatchQueueEntry}
    {rest : List BatchQueueEntry} (ordered : InNonceOrder (original :: rest))
    (nonce : replacement.nonce = original.nonce) (higher : original.maxFee ≤ replacement.maxFee)
    (valid : ∀ entry ∈ rest, entry.nonce < replacement.nonce →
      replacement.maxFee ≤ entry.maxFee) :
    InNonceOrder (replacement :: rest) := by
  -- Every entry stands for one of the same nonce before.
  have earlier : ∀ entry ∈ replacement :: rest, ∃ before ∈ original :: rest,
      before.nonce = entry.nonce := by
    intro entry member
    rcases List.mem_cons.mp member with rfl | inRest
    · exact ⟨original, List.mem_cons_self, nonce.symm⟩
    · exact ⟨entry, List.mem_cons_of_mem _ inRest, rfl⟩
  constructor
  · intro low lowMember high highMember wanted above below
    obtain ⟨lowBefore, lowBeforeMember, lowNonce⟩ := earlier low lowMember
    obtain ⟨highBefore, highBeforeMember, highNonce⟩ := earlier high highMember
    obtain ⟨entry, member, found⟩ := ordered.contiguous lowBefore lowBeforeMember highBefore
      highBeforeMember wanted (by omega) (by omega)
    rcases List.mem_cons.mp member with rfl | inRest
    · exact ⟨replacement, List.mem_cons_self, nonce.trans found⟩
    · exact ⟨entry, List.mem_cons_of_mem _ inRest, found⟩
  · intro low lowMember high highMember order
    rcases List.mem_cons.mp lowMember with rfl | lowInRest
    · rcases List.mem_cons.mp highMember with rfl | highInRest
      · exact Nat.le_refl _
      · have lower := ordered.fees original List.mem_cons_self high
          (List.mem_cons_of_mem _ highInRest) (by omega)
        exact Nat.le_trans lower higher
    · rcases List.mem_cons.mp highMember with rfl | highInRest
      · exact valid low lowInRest order
      · exact ordered.fees low (List.mem_cons_of_mem _ lowInRest) high
          (List.mem_cons_of_mem _ highInRest) order

/-- The counters follow the entry that changed. -/
theorem UserState.Counts.replace {queue after : BatchQueue} {address : Address}
    {state : UserState} {original replacement : BatchQueueEntry} {rest : List BatchQueueEntry}
    (counts : state.Counts queue address)
    (before : (queue.entriesOf address).Perm (original :: rest))
    (now : (after.entriesOf address).Perm (replacement :: rest))
    (higher : original.maxFee ≤ replacement.maxFee) :
    (state.replaceEntry (BatchState.getUserMinFeeInBatch after address)
      (replacement.maxFee - original.maxFee)).Counts after address := by
  refine ⟨?_, ?_, rfl⟩
  · calc state.proofsInBatch
        = (queue.entriesOf address).length := counts.proofsInBatch
      _ = (after.entriesOf address).length := by rw [before.length_eq, now.length_eq]; rfl
  · have total := counts.totalFeesInQueue
    rw [(before.map BatchQueueEntry.maxFee).sum_eq, List.map_cons, List.sum_cons] at total
    rw [(now.map BatchQueueEntry.maxFee).sum_eq, List.map_cons, List.sum_cons,
      UserState.replaceEntry]
    dsimp only
    omega

/-! ## An accepted replacement -/

/-- What an accepted replacement leaves, and what it leaves alone. -/
structure System.Replaced (environment : Environment) (config : Config) (system : System)
    (request : Request) (ref : Ref) (original replacement : BatchQueueEntry)
    (next : System) : Prop where
  found : system.storedEntry request = some original
  bumped : config.minBump original ≤ request.noncedVerificationData.maxFee
  /-- The same senders and nonces are queued. -/
  keys : (next.shared.batchQueue.items.map BatchQueueEntry.key).Perm
    (system.shared.batchQueue.items.map BatchQueueEntry.key)
  stored : next.storedEntry request = some replacement
  priority : (replacement, ⟨request.noncedVerificationData.maxFee,
    request.noncedVerificationData.nonce⟩) ∈ next.shared.batchQueue.entries
  data : replacement.noncedVerificationData = request.noncedVerificationData
  commitment : replacement.verificationDataCommitment =
    .ofVerificationData environment.keccak request.noncedVerificationData.verificationData
  signature : replacement.signature = request.signature
  messagingSink : replacement.messagingSink = some request.wsConnSink
  sender : replacement.sender = request.addr
  ordered : InNonceOrder (next.shared.batchQueue.entriesOf request.addr)
  counts : (next.shared.cells ref).Counts next.shared.batchQueue request.addr
  nonce : (next.shared.cells ref).nonce = (system.shared.cells ref).nonce
  /-- Every other entry stays under its priority, and no other state changes. -/
  otherEntries : ∀ stored : BatchQueueEntry × BatchQueueEntryPriority,
    stored.1.key ≠ replacement.key →
      (stored ∈ next.shared.batchQueue.entries ↔ stored ∈ system.shared.batchQueue.entries)
  users : next.shared.userStates = system.shared.userStates
  otherStates : ∀ address, address ≠ request.addr → ∀ otherRef,
    system.shared.userStates address = some otherRef →
      next.shared.cells otherRef = system.shared.cells otherRef

section Accepted

variable {environment : Environment} {config : Config} {system : System} {task : TaskId}
  {verifier : VerifierCall → Bool} {request : Request} {ref : Ref}
  {original : BatchQueueEntry}

theorem Shared.replaceEntry_cell (shared : Shared) (ref : Ref)
    (original replacement : BatchQueueEntry) :
    (shared.replaceEntry ref original replacement).cells ref =
      (shared.cells ref).replaceEntry (BatchState.getUserMinFeeInBatch
          (shared.batchQueue.replace replacement replacement.priority) replacement.sender)
        (replacement.maxFee - original.maxFee) :=
  Function.update_self _ _ _

theorem Config.le_minBump (config : Config) (original : BatchQueueEntry) :
    original.maxFee ≤ config.minBump original :=
  Nat.le_add_right _ _

theorem System.replaced_of_passes (passed : system.PassesChecks config verifier request original)
    (valid : BatchState.replacementEntryIsValid system.shared.batchQueue
      (System.replacementEntry environment request original) = true)
    (ordered : InNonceOrder (system.shared.batchQueue.entriesOf request.addr))
    (counts : (system.shared.cells ref).Counts system.shared.batchQueue request.addr)
    (own : ∀ address, system.shared.userStates address = some ref → address = request.addr) :
    system.Replaced environment config request ref original
      (System.replacementEntry environment request original)
      ((system.withShared ((system.shared.notify [original] .proofReplaced).replaceEntry ref
        original (System.replacementEntry environment request original))).finish task) := by
  obtain ⟨⟨storedPriority, member⟩, key⟩ := BatchState.getEntry_eq_some passed.stored
  have queued := mem_items_of_mem member
  have same := @System.replacementEntry_key environment _ _ _ passed.stored
  have sender : original.sender = request.addr := congrArg Prod.fst key
  have nonce : request.noncedVerificationData.nonce = original.nonce :=
    (congrArg Prod.snd key).symm
  have higher := Nat.le_trans (config.le_minBump original) passed.bumped
  obtain ⟨rest, fromQueue, before, after⟩ := entriesOf_replace
    (System.replacementEntry environment request original).priority queued same
  have sameSender : (System.replacementEntry environment request original).sender =
      request.addr := sender
  rw [sameSender] at fromQueue before after
  exact
    { found := passed.stored
      bumped := passed.bumped
      keys := keys_replace_perm queued same
      stored := by
        have storedNow := PriorityQueue.find?_of_mem (mem_replace.mpr (.inl rfl) :
          (System.replacementEntry environment request original,
            (System.replacementEntry environment request original).priority) ∈
            (system.shared.batchQueue.replace (System.replacementEntry environment request original)
              (System.replacementEntry environment request original).priority).entries)
        rw [same, key] at storedNow
        exact congrArg (Option.map Prod.fst) storedNow
      priority := mem_replace.mpr (.inl rfl)
      data := rfl
      commitment := rfl
      signature := rfl
      messagingSink := rfl
      sender := sender
      ordered := by
        apply InNonceOrder.perm _ after.symm
        apply (ordered.perm before).replace nonce higher
        intro entry member lower
        obtain ⟨inQueue, entrySender⟩ := mem_entriesOf.mp (fromQueue entry member)
        exact BatchState.replacementEntryIsValid_iff.mp valid entry inQueue
          (entrySender.trans sender.symm) lower
      counts := by
        have updated := counts.replace before after higher
        rw [← sameSender] at updated ⊢
        rw [System.finish_shared, System.withShared_shared, Shared.replaceEntry_cell]
        exact updated
      nonce := by
        rw [System.finish_shared, System.withShared_shared, Shared.replaceEntry_cell]
        rfl
      otherEntries := by
        intro stored different
        rw [System.finish_shared, System.withShared_shared]
        refine mem_replace.trans ⟨?_, fun before => .inr ⟨before, different⟩⟩
        rintro (rfl | ⟨before, -⟩)
        · exact absurd rfl different
        · exact before
      users := rfl
      otherStates := by
        intro address different otherRef found
        have otherCell : otherRef ≠ ref := by
          rintro rfl
          exact different (own address found)
        exact Function.update_of_ne otherCell _ _ }

end Accepted

/-! ## A bump that is rounded down -/

theorem InNonceOrder.of_single {entries : List BatchQueueEntry} (single : entries.length ≤ 1) :
    InNonceOrder entries := by
  match entries, single with
  | [], _ => exact ⟨by simp, by simp⟩
  | [entry], _ =>
      constructor
      · intro low lowMember high highMember nonce above below
        rw [List.mem_singleton.mp lowMember] at above
        rw [List.mem_singleton.mp highMember] at below
        exact ⟨entry, List.mem_singleton_self entry, Nat.le_antisymm above below⟩
      · intro low lowMember high highMember order
        rw [List.mem_singleton.mp lowMember, List.mem_singleton.mp highMember] at order
        exact absurd order (Nat.lt_irrefl _)

namespace Sample

/-- User 1 has bumped the fee of its proof by ten percent of 1000001, rounded
down. -/
def bumpsFee : List Label :=
  firstProof 0 1 0 1000001 ++ findUser 1 1 0 1100001 ++ [.readBalance 1 true]

/-- What is evaluated of a state in which the handler of task 1 replaces. -/
def isReplacing (system : System) : Bool :=
  match system.handlers 1 with
  | some (request, .replace ref _) =>
      decide (system.shared.userStates request.addr = some ref ∧
        (system.shared.batchQueue.entriesOf request.addr).length ≤ 1 ∧
        (system.shared.cells ref).proofsInBatch =
          (system.shared.batchQueue.entriesOf request.addr).length ∧
        (system.shared.cells ref).totalFeesInQueue =
          ((system.shared.batchQueue.entriesOf request.addr).map BatchQueueEntry.maxFee).sum ∧
        (system.shared.cells ref).lastMaxFeeLimit =
          BatchState.getUserMinFeeInBatch system.shared.batchQueue request.addr ∧
        (system.storedEntry request).any (fun original => original.maxFee = 1000001) ∧
        request.noncedVerificationData.maxFee = 1100001) &&
      (system.replace environment (config 10) 1 fun _ => true).any fun next =>
        next.shared.accepted ≠ system.shared.accepted
  | _ => false

theorem bumpsFee_ready :
    ∃ (system : System) (request : Request) (ref : Ref) (balance : Nat) (next : System)
      (original : BatchQueueEntry),
      (batcher Sample.environment (Sample.config 10)).run (Sample.system 10 100000000)
        Sample.bumpsFee = some system ∧
      system.handlers 1 = some (request, .replace ref balance) ∧
      (∀ address, system.shared.userStates address = some ref → address = request.addr) ∧
      InNonceOrder (system.shared.batchQueue.entriesOf request.addr) ∧
      (system.shared.cells ref).Counts system.shared.batchQueue request.addr ∧
      system.replace environment (config 10) 1 (fun _ => true) = some next ∧
      next.shared.accepted ≠ system.shared.accepted ∧
      system.storedEntry request = some original ∧ original.maxFee = 1000001 ∧
      request.noncedVerificationData.maxFee = 1100001 := by
  have found : ((batcher environment (config 10)).run (Sample.system 10 100000000) bumpsFee).any
      isReplacing = true := by
    decide +kernel
  obtain ⟨system, ran, replacing⟩ := (Option.any_eq_true _ _).mp found
  have separate := separateUsers_of_run ran
  rw [isReplacing] at replacing
  split at replacing
  · next request ref balance running =>
      rw [Bool.and_eq_true, decide_eq_true_iff] at replacing
      obtain ⟨⟨current, single, proofs, total, limit, bumped, fee⟩, accepts⟩ := replacing
      obtain ⟨next, stepped, accepted⟩ := (Option.any_eq_true _ _).mp accepts
      obtain ⟨original, stored, originalFee⟩ := (Option.any_eq_true _ _).mp bumped
      exact ⟨system, request, ref, balance, next, original, ran, running,
        fun address present => separate _ _ _ present current, .of_single single,
        ⟨proofs, total, limit⟩, stepped, of_decide_eq_true accepted, stored,
        of_decide_eq_true originalFee, fee⟩
  · cases replacing

end Sample

end AlignedLayer
