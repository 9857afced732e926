import AlignedLayer.Batcher.Account
import AlignedLayer.Batcher.Flushing
import AlignedLayer.Batcher.Keys
import AlignedLayer.Batcher.NoncePrefix

/-!
# Every account takes the steps of an account

The batcher, seen from one address, is an account.  As long as user states are
only created for addresses without entries and only used while they are
current, no nonce is accepted twice, and a failed batch finds room in the
queue, every step of the batcher is a step of every account.
-/

namespace AlignedLayer

variable {environment : Environment} {config : Config} {system next : System} {label : Label}
  {after : Shared} {address : Address} {conditions : Account.Conditions}

/-! ## The entries of one address -/

section Entries

variable {queue moved : BatchQueue} {entry : BatchQueueEntry} {address : Address}

theorem entriesOf_perm (permutation : moved.items.Perm queue.items) (address : Address) :
    (moved.entriesOf address).Perm (queue.entriesOf address) :=
  permutation.filter _

theorem entriesOf_of_cons_other (permutation : moved.items.Perm (entry :: queue.items))
    (other : entry.sender ≠ address) :
    (moved.entriesOf address).Perm (queue.entriesOf address) := by
  have filtered := permutation.filter fun other => other.sender = address
  rwa [List.filter_cons_of_neg (by simpa using other)] at filtered

/-- Other addresses than that of a pushed entry keep their entries. -/
theorem entriesOf_push_other (priority : BatchQueueEntryPriority)
    (other : entry.sender ≠ address) :
    (BatchQueue.entriesOf (queue.push entry priority) address).Perm
      (queue.entriesOf address) := by
  by_cases queued : entry.key ∈ queue.items.map BatchQueueEntry.key
  · rw [BatchQueue.entriesOf, items_push_of_queued queued]
    exact .refl _
  · exact entriesOf_of_cons_other (items_push_perm queued) other

end Entries

/-! ## The account of an address -/

/-- The users whose counters are still to be recomputed. -/
def Stage.outdated : Stage → List Address
  | .updatingUsers users | .restored users => users
  | _ => []

theorem Stage.outdated_of_isUnsent {stage : Stage} (unsent : stage.isUnsent = true) :
    stage.outdated = [] := by
  cases stage
  all_goals first | rfl | cases unsent

theorem Stage.outdated_of_isLost {stage : Stage} (lost : stage.isLost = true) :
    stage.outdated = [] := by
  cases stage
  all_goals first | rfl | cases lost

namespace Shared

def stateOf (address : Address) (shared : Shared) : Option UserState :=
  (shared.userStates address).map shared.cells

/-- The counters of the user are still to be recomputed for the batch. -/
def isOutdated (address : Address) (shared : Shared) : Bool :=
  match shared.batch with
  | some (_, stage) => stage.outdated.contains address
  | none => false

/-- A batch whose user could not pay has no part in any account once the flush
for it has emptied the queue. -/
def account (cleared : Bool) (address : Address) (shared : Shared) : Account where
  inFlight := if cleared then [] else shared.inFlight.filter fun entry => entry.sender = address
  queued := shared.batchQueue.entriesOf address
  state := shared.stateOf address
  outdated := shared.isOutdated address

section

variable {shared : Shared} {cleared : Bool} {ref : Ref} {userState : UserState}

/-- A step that leaves the entries and the state of the address as they are. -/
theorem account_keep (queue : (after.batchQueue.entriesOf address).Perm
      (shared.batchQueue.entriesOf address))
    (state : after.stateOf address = shared.stateOf address)
    (inFlight : after.inFlight = shared.inFlight)
    (outdated : after.isOutdated address = shared.isOutdated address) :
    (shared.account cleared address).Step conditions (after.account cleared address) := by
  have equation : after.account cleared address =
      { shared.account cleared address with queued := after.batchQueue.entriesOf address } := by
    simp only [account, state, inFlight, outdated]
  rw [equation]
  exact .keep queue

theorem stateOf_createUser_self (nonce : Nat) :
    (shared.createUser address nonce).stateOf address = some (UserState.new nonce) := by
  simp [stateOf, createUser]

theorem stateOf_createUser_other {other : Address}
    (bound : ∀ address ref, shared.userStates address = some ref → ref < shared.nextRef)
    (different : address ≠ other) (nonce : Nat) :
    (shared.createUser other nonce).stateOf address = shared.stateOf address := by
  simp only [stateOf, createUser, Function.update_of_ne different]
  cases found : shared.userStates address with
  | none => rfl
  | some ref =>
      have old := Nat.ne_of_lt (bound address ref found)
      simp only [Option.map_some, Function.update_of_ne old]

/-- Writing the cell of another user. -/
theorem stateOf_writeCell_other {other : Address} (separate : shared.SeparateUsers)
    (found : shared.userStates other = some ref) (different : address ≠ other)
    (users : after.userStates = shared.userStates)
    (cells : after.cells = Function.update shared.cells ref userState) :
    after.stateOf address = shared.stateOf address := by
  rw [stateOf, stateOf, users, cells]
  cases own : shared.userStates address with
  | none => rfl
  | some ownRef =>
      have notSame : ownRef ≠ ref := by
        rintro rfl
        exact different (separate address other ownRef own found)
      simp only [Option.map_some, Function.update_of_ne notSame]

theorem stateOf_writeCell_self (found : shared.userStates address = some ref)
    (users : after.userStates = shared.userStates)
    (cells : after.cells = Function.update shared.cells ref userState) :
    after.stateOf address = some userState := by
  rw [stateOf, users, cells, found, Option.map_some, Function.update_self]

end

end Shared

def System.isCleared (system : System) : Bool :=
  match system.flush with
  | some (.insufficientBalance, .cleared _) => true
  | _ => false

/-- Until the queue has been cleared. -/
theorem System.isCleared_eq_false {origin : FlushOrigin} {stage : FlushStage}
    (flushing : system.flush = some (origin, stage)) (earlier : ∀ nonce, stage ≠ .cleared nonce) :
    system.isCleared = false := by
  rw [isCleared]
  split
  · next nonce same =>
      rw [flushing, Option.some.injEq, Prod.mk.injEq] at same
      exact absurd same.2 (earlier nonce)
  · rfl

/-- The batch of a user that could not pay has not left yet. -/
theorem FlushWaits.of_isCleared (waits : FlushWaits system) (isCleared : system.isCleared = true) :
    ∃ batch user, system.shared.batch = some (batch, .insufficient user) := by
  rw [System.isCleared] at isCleared
  split at isCleared
  · next nonce flushing => exact waits _ flushing
  · cases isCleared

/-- At any other stage the queue has not been cleared for the batch. -/
theorem FlushWaits.isCleared_eq_false {batch : InFlight} {stage : Stage} (waits : FlushWaits system)
    (current : system.shared.batch = some (batch, stage))
    (different : ∀ user, stage ≠ .insufficient user) : system.isCleared = false := by
  cases isCleared : system.isCleared with
  | false => rfl
  | true =>
      obtain ⟨other, user, same⟩ := waits.of_isCleared isCleared
      rw [current, Option.some.injEq, Prod.mk.injEq] at same
      exact absurd same.2 (different user)

def System.account (system : System) (address : Address) : Account :=
  system.shared.account system.isCleared address

/-! ## What an eviction leaves -/

section Eviction

variable {layout : QueueLayout} {ref : Ref} {target : BatchQueueEntry} {shared : Shared}

/-- The eviction drops the user, or writes its cell for the entry that is left
last. -/
theorem Shared.left_evict_cases (layout : QueueLayout) (ref : Ref) (target : BatchQueueEntry)
    (shared : Shared) :
    ∃ userStates cells notices,
      left (shared.evict layout ref target) =
        { shared with
          batchQueue := shared.batchQueue.erase target.key
          userStates := userStates
          cells := cells
          notices := notices } ∧
      ((lastEntryOf layout (shared.batchQueue.erase target.key) target.sender = none ∧
          userStates = Function.update shared.userStates target.sender none ∧
          cells = shared.cells) ∨
        ∃ last, lastEntryOf layout (shared.batchQueue.erase target.key) target.sender = some last ∧
          userStates = shared.userStates ∧
          cells = Function.update shared.cells ref
            (Account.evictedState (shared.cells ref) target last)) := by
  obtain ⟨notices, equation⟩ := left_evict layout ref target shared
  rw [equation]
  cases found : lastEntryOf layout (shared.batchQueue.erase target.key) target.sender with
  | none =>
      have dropped : left (updateEvictedUserState layout target (some ref)
          { shared with batchQueue := shared.batchQueue.erase target.key }) =
          { shared with
            batchQueue := shared.batchQueue.erase target.key
            userStates := Function.update shared.userStates target.sender none } := by
        simp only [updateEvictedUserState, found, left]
      rw [dropped]
      exact ⟨_, _, _, rfl, .inl ⟨rfl, rfl, rfl⟩⟩
  | some last =>
      have written : left (updateEvictedUserState layout target (some ref)
          { shared with batchQueue := shared.batchQueue.erase target.key }) =
          { shared with
            batchQueue := shared.batchQueue.erase target.key
            cells := Function.update shared.cells ref
              (Account.evictedState (shared.cells ref) target last) } := by
        simp only [updateEvictedUserState, found, Account.evictedState]
        cases (shared.cells ref).evictEntry target.maxFee last.maxFee with
        | ok evicted => simp only [left]
        | error panicked => simp only [left]
      rw [written]
      exact ⟨_, _, _, rfl, .inr ⟨last, rfl, rfl, rfl⟩⟩

/-- Other users than the evicted one. -/
theorem Shared.stateOf_evict_other (separate : shared.SeparateUsers)
    (present : shared.userStates target.sender = some ref) (different : address ≠ target.sender) :
    (left (shared.evict layout ref target)).stateOf address = shared.stateOf address := by
  obtain ⟨userStates, cells, notices, equation, outcome⟩ :=
    left_evict_cases layout ref target shared
  rw [equation]
  rcases outcome with ⟨-, rfl, rfl⟩ | ⟨last, -, rfl, rfl⟩
  · simp only [stateOf, Function.update_of_ne different]
  · exact stateOf_writeCell_other separate present different rfl rfl

/-- The evicted user, with what is queued of it afterwards. -/
theorem Shared.account_evict {cleared : Bool} (queued : target ∈ shared.batchQueue.items)
    (present : shared.userStates target.sender = some ref)
    (granted : conditions.evictable target)
    (queue : (after.batchQueue.entriesOf target.sender).Perm
      (BatchQueue.entriesOf (shared.batchQueue.erase target.key) target.sender))
    (state : after.stateOf target.sender =
      (left (shared.evict layout ref target)).stateOf target.sender)
    (batch : after.batch = shared.batch) :
    (shared.account cleared target.sender).Step conditions
      (after.account cleared target.sender) := by
  have known : (shared.account cleared target.sender).state = some (shared.cells ref) := by
    rw [account, stateOf, present, Option.map_some]
  have removed := entriesOf_of_cons (items_erase_perm queued)
  obtain ⟨userStates, cells, notices, equation, outcome⟩ :=
    left_evict_cases layout ref target shared
  rw [equation] at state
  rcases outcome with ⟨nothing, rfl, rfl⟩ | ⟨last, found, rfl, rfl⟩
  · have empty : BatchQueue.entriesOf (shared.batchQueue.erase target.key) target.sender = [] := by
      apply List.eq_nil_iff_forall_not_mem.mpr
      intro entry member
      obtain ⟨stored, sender⟩ := mem_entriesOf.mp member
      obtain ⟨last, found⟩ := @lastEntryOf_of_mem layout _ _ stored
      rw [sender, nothing] at found
      cases found
    rw [empty] at queue removed
    have dropped : after.stateOf target.sender = none := by
      rw [state]
      simp only [stateOf, Function.update_self, Option.map_none]
    have same : after.account cleared target.sender =
        { shared.account cleared target.sender with
          queued := []
          state := none } := by
      simp only [account, dropped, queue.eq_nil, inFlight, batch, isOutdated]
    rw [same]
    exact .evictOnly known removed granted
  · have written : after.stateOf target.sender =
        some (Account.evictedState (shared.cells ref) target last) := by
      rw [state]
      exact stateOf_writeCell_self present rfl rfl
    have same : after.account cleared target.sender =
        { shared.account cleared target.sender with
          queued := after.batchQueue.entriesOf target.sender
          state := some (Account.evictedState (shared.cells ref) target last) } := by
      simp only [account, written, inFlight, batch, isOutdated]
    rw [same]
    refine .evict known (removed.trans (queue.symm.cons target)) ?_ ?_ granted
    · intro other member nonce
      obtain ⟨stored, sender⟩ := mem_entriesOf.mp (queue.mem_iff.mp member)
      exact (mem_items_erase.mp stored).2 (Prod.ext sender nonce)
    · exact queue.mem_iff.mpr (mem_entriesOf.mpr (lastEntryOf_eq_some found))

end Eviction

/-! ## The steps -/

/-- The step may give up the entry for an incoming proof. -/
inductive System.Evicts (config : Config) (system : System) : Label → BatchQueueEntry → Prop where
  | enqueue {task : TaskId} {layout : QueueLayout} {request : Request} {ref evictedRef : Ref}
      {balance : Nat} {entry : BatchQueueEntry}
      (running : system.handlers task = some (request, .enqueue ref balance))
      (full : BatchState.isQueueFull config.maxQueueSize system.shared.batchQueue = true)
      (queued : entry ∈ system.shared.batchQueue.items)
      (outbid : entry.maxFee < request.noncedVerificationData.maxFee)
      (present : system.shared.userStates entry.sender = some evictedRef)
      (free : system.locks evictedRef = none) :
      Evicts config system (.enqueue task layout) entry

/-- The entries a full queue might give up for the request. -/
def System.ForAllOutbid (system : System) (request : Request)
    (property : BatchQueueEntry → Prop) : Prop :=
  ∀ entry ∈ system.shared.batchQueue.items,
    entry.maxFee < request.noncedVerificationData.maxFee →
      ∀ evictedRef ∈ system.shared.userStates entry.sender,
        system.locks evictedRef = none → property entry

instance (system : System) (request : Request) (property : BatchQueueEntry → Prop)
    [DecidablePred property] : Decidable (system.ForAllOutbid request property) :=
  inferInstanceAs (Decidable (∀ entry ∈ _, _ → ∀ evictedRef ∈ _, _ → _))

/-- The step may put the entry in the place of another one. -/
inductive System.Replaces (environment : Environment) (system : System) :
    Label → BatchQueueEntry → Prop where
  | replace {task : TaskId} {verifier : VerifierCall → Bool} {request : Request} {ref : Ref}
      {balance : Nat} {original : BatchQueueEntry}
      (running : system.handlers task = some (request, .replace ref balance))
      (stored : BatchState.getEntry system.shared.batchQueue request.addr
        request.noncedVerificationData.nonce = some original) :
      Replaces environment system (.replace task verifier)
        (System.replacementEntry environment request original)

/-- The step creates a user state with the nonce for the address. -/
inductive System.Creates (config : Config) (system : System) : Label → Address → Nat → Prop where
  | insertUser {task : TaskId} {request : Request} {nonce : Nat}
      (running : system.handlers task = some (request, .insertUser nonce)) :
      Creates config system (.insertUser task) request.addr nonce
  | insertNonpaying {origin : FlushOrigin} {address : Address} {nonce : Nat}
      (flushing : system.flush = some (origin, .cleared nonce))
      (configured : config.nonpayingReplacementAddr = some address) :
      Creates config system .insertNonpaying address nonce

/-- What is known of a step grants what the conditions ask for. -/
structure System.Grants (environment : Environment) (config : Config) (system : System)
    (label : Label) (address : Address) (conditions : Account.Conditions) : Prop where
  creatable : ∀ nonce, system.Creates config label address nonce → conditions.creatable nonce
  evictable : ∀ entry, system.Evicts config label entry → entry.sender = address →
    conditions.evictable entry
  replacement : ∀ entry, system.Replaces environment label entry → entry.sender = address →
    conditions.replacement entry
  settles : label = .receipt → conditions.settles
  restorable : ∀ layout batch, label = .restore layout →
    system.shared.batch = some (batch, .failed) → conditions.restorable

theorem System.Evicts.of_target {task : TaskId} {layout : QueueLayout} {request : Request}
    {ref evictedRef : Ref} {balance : Nat} {target : BatchQueueEntry}
    (running : system.handlers task = some (request, .enqueue ref balance))
    (full : BatchState.isQueueFull config.maxQueueSize system.shared.batchQueue = true)
    (found : system.shared.evictionTarget layout system.locks
      request.noncedVerificationData.maxFee = some (evictedRef, target)) :
    system.Evicts config (.enqueue task layout) target := by
  obtain ⟨present, free, ⟨priority, member⟩, outbid⟩ := Shared.evictionTarget_eq_some found
  exact .enqueue running full (mem_items_of_mem member) outbid present free

section Steps

variable {shared : Shared} {cleared : Bool}

theorem Shared.inFlight_filter_account (whole : cleared = false) :
    (shared.account cleared address).inFlight =
      shared.inFlight.filter fun entry => entry.sender = address := by
  rw [account, whole]
  rfl

theorem mem_account_inFlight {entry : BatchQueueEntry}
    (member : entry ∈ (shared.account cleared address).inFlight) :
    entry ∈ shared.inFlight ∧ entry.sender = address := by
  rw [Shared.account] at member
  cases cleared with
  | true => cases member
  | false =>
      obtain ⟨flying, sender⟩ := List.mem_filter.mp member
      exact ⟨flying, of_decide_eq_true sender⟩

theorem mem_live_of_account {entry : BatchQueueEntry}
    (member : entry ∈ (shared.account cleared address).live) :
    entry ∈ shared.live ∧ entry.sender = address := by
  rcases List.mem_append.mp member with flying | queued
  · obtain ⟨inFlight, sender⟩ := mem_account_inFlight flying
    exact ⟨List.mem_append_right _ inFlight, sender⟩
  · obtain ⟨stored, sender⟩ := mem_entriesOf.mp queued
    exact ⟨List.mem_append_left _ stored, sender⟩

theorem mem_account_inFlight_of_whole {entry : BatchQueueEntry} (whole : cleared = false)
    (flying : entry ∈ shared.inFlight) :
    entry ∈ (shared.account cleared entry.sender).inFlight := by
  rw [Shared.inFlight_filter_account whole]
  exact List.mem_filter.mpr ⟨flying, decide_eq_true rfl⟩

theorem mem_account_live {entry : BatchQueueEntry} (whole : cleared = false)
    (live : entry ∈ shared.live) : entry ∈ (shared.account cleared entry.sender).live := by
  rcases List.mem_append.mp live with queued | flying
  · exact List.mem_append_right _ (mem_entriesOf.mpr ⟨queued, rfl⟩)
  · exact List.mem_append_left _ (mem_account_inFlight_of_whole whole flying)

/-- The handler's own account accepts the entry; another one may have been
evicted before. -/
theorem Shared.account_accept {middle : Shared} {entry : BatchQueueEntry} {ref : Ref}
    {balance : Nat}
    (queue : (middle.batchQueue.entriesOf entry.sender).Perm
      (shared.batchQueue.entriesOf entry.sender))
    (state : middle.stateOf entry.sender = shared.stateOf entry.sender)
    (batch : middle.batch = shared.batch)
    (fresh : entry.key ∉ shared.live.map BatchQueueEntry.key)
    (freshQueue : entry.key ∉ middle.batchQueue.items.map BatchQueueEntry.key)
    (present : middle.userStates entry.sender = some ref)
    (admits : (middle.cells ref).Admits entry.noncedVerificationData balance) :
    (shared.account cleared entry.sender).Step conditions
      ((middle.acceptEntry ref entry).account cleared entry.sender) := by
  have known : (shared.account cleared entry.sender).state = some (middle.cells ref) := by
    rw [account, ← state, stateOf, present, Option.map_some]
  have written : (middle.acceptEntry ref entry).stateOf entry.sender =
      some ((middle.cells ref).addEntry entry.nonce entry.maxFee) :=
    stateOf_writeCell_self present rfl rfl
  have sameBatch : (middle.acceptEntry ref entry).batch = shared.batch := batch
  have same : (middle.acceptEntry ref entry).account cleared entry.sender =
      { shared.account cleared entry.sender with
        queued := (middle.acceptEntry ref entry).batchQueue.entriesOf entry.sender
        state := some ((middle.cells ref).addEntry entry.nonce entry.maxFee) } := by
    simp only [account, written, inFlight, sameBatch, isOutdated]
  rw [same]
  have stored : ((middle.acceptEntry ref entry).batchQueue.entriesOf entry.sender).Perm
      (entry :: shared.batchQueue.entriesOf entry.sender) :=
    (entriesOf_of_cons (items_push_perm freshQueue)).trans (queue.cons entry)
  refine .accept known stored ?_ admits.nonce admits.fee
  intro other member nonce
  obtain ⟨live, sender⟩ := mem_live_of_account member
  have key : other.key = entry.key := Prod.ext sender nonce
  exact fresh (key ▸ List.mem_map_of_mem live)

/-- Accepting the entry of another user changes nothing. -/
theorem Shared.account_accept_other {entry : BatchQueueEntry} {ref : Ref}
    (separate : shared.SeparateUsers) (present : shared.userStates entry.sender = some ref)
    (different : address ≠ entry.sender) :
    ((shared.acceptEntry ref entry).batchQueue.entriesOf address).Perm
        (shared.batchQueue.entriesOf address) ∧
      (shared.acceptEntry ref entry).stateOf address = shared.stateOf address := by
  constructor
  · exact entriesOf_push_other _ (Ne.symm different)
  · exact stateOf_writeCell_other separate present different rfl rfl

theorem Shared.account_replace {original replacement : BatchQueueEntry} {ref : Ref}
    (queued : original ∈ shared.batchQueue.items) (key : replacement.key = original.key)
    (bumped : original.maxFee ≤ replacement.maxFee)
    (valid : BatchState.replacementEntryIsValid shared.batchQueue replacement = true)
    (present : shared.userStates replacement.sender = some ref)
    (granted : conditions.replacement replacement) :
    (shared.account cleared replacement.sender).Step conditions
      ((shared.replaceEntry ref original replacement).account cleared replacement.sender) := by
  have sender : replacement.sender = original.sender := congrArg Prod.fst key
  have known : (shared.account cleared replacement.sender).state = some (shared.cells ref) := by
    rw [account, stateOf, present, Option.map_some]
  have before := entriesOf_of_cons (items_erase_perm queued)
  rw [← sender] at before
  have moved := @items_replace_perm shared.batchQueue replacement.priority _ _ key
  have stored : ((shared.replaceEntry ref original replacement).batchQueue.entriesOf
      replacement.sender).Perm (replacement ::
        BatchQueue.entriesOf (shared.batchQueue.erase original.key) replacement.sender) :=
    entriesOf_of_cons moved
  have written : (shared.replaceEntry ref original replacement).stateOf replacement.sender =
      some ((shared.cells ref).replaceEntry
        (lowestFee ((shared.replaceEntry ref original replacement).batchQueue.entriesOf
          replacement.sender)) (replacement.maxFee - original.maxFee)) :=
    stateOf_writeCell_self present rfl rfl
  have same : (shared.replaceEntry ref original replacement).account cleared replacement.sender =
      { shared.account cleared replacement.sender with
        queued := (shared.replaceEntry ref original replacement).batchQueue.entriesOf
          replacement.sender
        state := some ((shared.cells ref).replaceEntry
          (lowestFee ((shared.replaceEntry ref original replacement).batchQueue.entriesOf
            replacement.sender)) (replacement.maxFee - original.maxFee)) } := by
    rw [account, written]
    rfl
  rw [same]
  refine .replace known before stored (congrArg Prod.snd key) bumped ?_ granted
  intro other member less
  obtain ⟨inErased, otherSender⟩ := mem_entriesOf.mp member
  exact BatchState.replacementEntryIsValid_iff.mp valid other (mem_items_erase.mp inErased).1
    otherSender less

theorem Shared.account_replace_other {original replacement : BatchQueueEntry} {ref : Ref}
    (separate : shared.SeparateUsers) (queued : original ∈ shared.batchQueue.items)
    (key : replacement.key = original.key)
    (present : shared.userStates replacement.sender = some ref)
    (different : address ≠ replacement.sender) :
    (shared.account cleared address).Step conditions
      ((shared.replaceEntry ref original replacement).account cleared address) := by
  have sender : replacement.sender = original.sender := congrArg Prod.fst key
  refine account_keep ?_ (stateOf_writeCell_other separate present different rfl rfl) rfl rfl
  have moved := @items_replace_perm shared.batchQueue replacement.priority _ _ key
  exact (entriesOf_of_cons_other moved (Ne.symm different)).trans
    (entriesOf_of_cons_other (items_erase_perm queued)
      (sender ▸ Ne.symm different)).symm

/-- The batch takes the first entries of every account. -/
theorem Shared.account_extract (keyed : Keyed shared) (layout : QueueLayout)
    (gasPrice blockNumber : Nat) (idle : shared.batch = none) (whole : cleared = false) :
    (shared.account cleared address).Step conditions
      ((shared.extract environment config layout gasPrice blockNumber).account cleared
        address) := by
  rcases extract_cases environment config layout gasPrice blockNumber shared with
    ⟨rest, permutation, equation⟩ | ⟨entries, rest, ⟨extracted⟩, equation⟩
  · rw [equation]
    exact account_keep (entriesOf_perm (permutation.map Prod.fst) address) rfl rfl rfl
  · rw [equation]
    have nothing : (shared.account cleared address).inFlight = [] := by
      rw [inFlight_filter_account whole, inFlight_of_none idle, List.filter_nil]
    have moved : (shared.batchQueue.entriesOf address).Perm
        ((entries.filter fun entry => entry.sender = address) ++ rest.entriesOf address) :=
      extracted.entriesOf_perm address
    have taken : ∀ gas call number, Shared.account cleared address
        { shared with
          batchQueue := rest
          batch := some (⟨number, blockNumber, entries, call⟩, .finalizing)
          batches := gas } =
        { shared.account cleared address with
          inFlight := entries.filter fun entry => entry.sender = address
          queued := rest.entriesOf address } := by
      intro gas call number
      subst whole
      simp only [account, isOutdated, idle]
      rfl
    rw [taken]
    refine .take nothing moved ?_
    intro low lowMember high highMember
    obtain ⟨stored, inTaken, rfl⟩ := extracted.mem_of_taken (List.mem_filter.mp lowMember).1
    obtain ⟨other, inRest, rfl⟩ := List.mem_map.mp (mem_entriesOf.mp highMember).1
    have order := extracted.separated stored inTaken other inRest
    rwa [keyed.priorities stored (extracted.perm.mem_iff.mpr (List.mem_append_left _ inTaken)),
      keyed.priorities other (extracted.perm.mem_iff.mpr (List.mem_append_right _ inRest))] at order

theorem Shared.isOutdated_of_stage {batch : InFlight} {stage : Stage}
    (current : shared.batch = some (batch, stage))
    (updated : stage.outdated = []) : shared.isOutdated address = false := by
  simp [isOutdated, current, updated]

/-- Another user has been updated. -/
theorem Shared.isOutdated_of_erase {batch : InFlight} {stage later : Stage} {other : Address}
    (current : shared.batch = some (batch, stage)) (entered : after.batch = some (batch, later))
    (different : address ≠ other) (erased : later.outdated = stage.outdated.erase other) :
    after.isOutdated address = shared.isOutdated address := by
  simp only [isOutdated, current, entered, erased]
  rw [List.contains_eq_mem, List.contains_eq_mem]
  exact decide_eq_decide.mpr (List.mem_erase_of_ne different)

/-- Another stage of the same work. -/
theorem Shared.account_enter {batch : InFlight} {stage later : Stage}
    (current : shared.batch = some (batch, stage)) (entered : after.batch = some (batch, later))
    (openness : stage.isOpen = later.isOpen)
    (before : shared.isOutdated address = false) (now : after.isOutdated address = false)
    (queue : after.batchQueue = shared.batchQueue)
    (state : after.stateOf address = shared.stateOf address) :
    (shared.account cleared address).Step conditions (after.account cleared address) := by
  refine account_keep (by rw [queue]) state ?_ (now.trans before.symm)
  cases laterOpen : later.isOpen with
  | true => rw [inFlight_of_open entered laterOpen, inFlight_of_open current (openness.trans laterOpen)]
  | false =>
      rw [inFlight_of_not_open entered laterOpen,
        inFlight_of_not_open current (openness.trans laterOpen)]

theorem Shared.account_restore (keyed : Keyed shared) {layout : QueueLayout} {maxQueueSize : Nat}
    {batch : InFlight} {restored : Shared} (current : shared.batch = some (batch, .failed))
    (room : shared.batchQueue.len + batch.entries.length ≤ maxQueueSize)
    (whole : cleared = false) (granted : conditions.restorable)
    (ran : shared.restore layout maxQueueSize batch = some restored) :
    (shared.account cleared address).Step conditions (restored.account cleared address) := by
  rw [restore_of_room room] at ran
  cases ran
  have flying := inFlight_of_open current rfl
  have unique : ((batch.entries ++ shared.batchQueue.items).map BatchQueueEntry.key).Nodup := by
    have distinct := keyed.distinct
    rw [live, flying] at distinct
    exact (List.perm_append_comm.map BatchQueueEntry.key).nodup_iff.mp distinct
  have stored := (items_pushAll_perm unique).filter fun entry => entry.sender = address
  rw [List.filter_append] at stored
  have same : ∀ queue numbers, Shared.account cleared address
      { shared with
        batchQueue := queue
        batch := some (batch, .restored (sendersOf batch.entries))
        restored := numbers } =
      { shared.account cleared address with
        inFlight := []
        queued := queue.entriesOf address
        outdated := (sendersOf batch.entries).contains address } := by
    intro queue numbers
    subst whole
    simp only [account, isOutdated]
    rfl
  rw [same]
  refine .restore ?_ ?_ (isOutdated_of_stage current rfl) granted
  · rw [inFlight_filter_account whole, flying]
    exact stored
  · intro nonempty
    obtain ⟨entry, member⟩ := List.exists_mem_of_ne_nil _ nonempty
    obtain ⟨inFlight, sender⟩ := mem_account_inFlight member
    rw [flying] at inFlight
    exact List.contains_iff_mem.mpr (mem_sendersOf.mpr ⟨entry, inFlight, sender⟩)

/-- Nothing of a settled batch is in flight any more. -/
theorem Shared.account_updatingUsers (batch : InFlight) (users : List Address) :
    (shared.enter batch (.updatingUsers users)).account cleared address =
      { shared.account cleared address with
        inFlight := []
        outdated := users.contains address } := by
  have landed : Shared.inFlight (shared.enter batch (.updatingUsers users)) = [] :=
    inFlight_of_not_open rfl rfl
  simp only [account, landed, List.filter_nil, ite_self]
  rfl

/-- The counters of the user are recomputed once nothing of the batch is in
flight any more. -/
theorem Shared.account_updateUser {layout : QueueLayout} {batch : InFlight} {stage later : Stage}
    (current : shared.batch = some (batch, stage)) (settled : stage.isOpen = false)
    (laterSettled : later.isOpen = false) :
    (shared.account cleared address).Step conditions
      (((shared.updateUser layout address).enter batch later).account cleared address) := by
  have nothing : (shared.account cleared address).inFlight = [] := by
    rw [account, inFlight_of_not_open current settled, List.filter_nil, ite_self]
  have recounted : (shared.updateUser layout address).stateOf address =
      (shared.stateOf address).map fun state =>
        state.recounted (shared.batchQueue.entriesOf address) := by
    rw [updateUser]
    cases found : shared.userStates address with
    | none => simp only [stateOf, found, Option.map_none]
    | some ref =>
        simp only [stateOf, found, Option.map_some, Function.update_self,
          UserState.updateFromQueue_eq]
        rfl
  obtain ⟨cells, equation⟩ := updateUser_eq layout address shared
  rw [equation] at recounted ⊢
  have same : Shared.account cleared address
      (Shared.enter batch later { shared with cells := cells }) =
      { shared.account cleared address with
        state := (shared.account cleared address).state.map fun state =>
          state.recounted (shared.account cleared address).queued
        outdated := Shared.isOutdated address
          (Shared.enter batch later { shared with cells := cells }) } := by
    have state : Shared.stateOf address (Shared.enter batch later { shared with cells := cells }) =
        (shared.stateOf address).map fun state =>
          state.recounted (shared.batchQueue.entriesOf address) := recounted
    have landed : Shared.inFlight (Shared.enter batch later { shared with cells := cells }) = [] :=
      inFlight_of_not_open rfl laterSettled
    simp only [account, state, landed, inFlight_of_not_open current settled]
    rfl
  rw [same]
  exact .recompute nothing

theorem Shared.stateOf_updateUser_other {layout : QueueLayout} {other : Address}
    (separate : shared.SeparateUsers) (different : address ≠ other) :
    (shared.updateUser layout other).stateOf address = shared.stateOf address := by
  rw [updateUser]
  cases found : shared.userStates other with
  | none => rfl
  | some ref => exact stateOf_writeCell_other separate found different rfl rfl

/-- The limit of a user is lifted when nothing of it is queued any more. -/
theorem Shared.account_cleanupUser {layout : QueueLayout} {batch : InFlight} {users : List Address}
    {stage : Stage} (current : shared.batch = some (batch, stage)) (settled : stage.isOpen = false)
    (before : shared.isOutdated address = false) :
    (shared.account cleared address).Step conditions
      (((shared.cleanupUser layout address).enter batch (.cleaningUsers users)).account cleared
        address) := by
  have flying := inFlight_of_not_open current settled
  have keeps : (shared.cleanupUser layout address).stateOf address = shared.stateOf address →
      (shared.account cleared address).Step conditions
        (((shared.cleanupUser layout address).enter batch (.cleaningUsers users)).account cleared
          address) := by
    intro state
    obtain ⟨cells, equation⟩ := cleanupUser_eq layout address shared
    rw [equation] at state ⊢
    refine account_keep (.refl _) state ?_ before.symm
    rw [flying]
    exact inFlight_of_not_open rfl rfl
  cases found : shared.userStates address with
  | none =>
      apply keeps
      simp only [cleanupUser, found]
  | some ref =>
      cases calculated : calculateNewUserStatesData layout shared.batchQueue address with
      | some values =>
          apply keeps
          simp only [cleanupUser, found, calculated, Option.isSome_some, if_true]
      | none =>
          -- Without counters nothing is queued.
          have recounted := UserState.updateFromQueue_eq layout shared.batchQueue address
            (shared.cells ref)
          simp only [UserState.updateFromQueue, calculated, UserState.mk.injEq] at recounted
          have empty : shared.batchQueue.entriesOf address = [] :=
            List.length_eq_zero_iff.mp recounted.2.2.2.symm
          have same : ((shared.cleanupUser layout address).enter batch
              (.cleaningUsers users)).account cleared address =
              { shared.account cleared address with
                state := (shared.account cleared address).state.map fun state =>
                  { state with lastMaxFeeLimit := u256Max } } := by
            have written : ((shared.cleanupUser layout address).enter batch
                (.cleaningUsers users)).stateOf address =
                (shared.stateOf address).map fun state =>
                  { state with lastMaxFeeLimit := u256Max } := by
              simp only [stateOf, enter, cleanupUser, found, calculated, Option.isSome_none,
                Bool.false_eq_true, if_false, Option.map_some, Function.update_self]
            have landed : Shared.inFlight ((shared.cleanupUser layout address).enter batch
                (.cleaningUsers users)) = [] := inFlight_of_not_open rfl rfl
            obtain ⟨cells, equation⟩ := cleanupUser_eq layout address shared
            rw [equation] at written landed ⊢
            simp only [account, written, landed, flying, before]
            rfl
          rw [same]
          refine .unlimit ?_
          rw [Account.live, account, flying, List.filter_nil, ite_self, empty, List.append_nil]

theorem Shared.stateOf_cleanupUser_other {layout : QueueLayout} {other : Address}
    (separate : shared.SeparateUsers) (different : address ≠ other) :
    (shared.cleanupUser layout other).stateOf address = shared.stateOf address := by
  rw [cleanupUser]
  cases found : shared.userStates other with
  | none => rfl
  | some ref =>
      simp only
      split
      · rfl
      · exact stateOf_writeCell_other separate found different rfl rfl

theorem Shared.account_removeUserProofs :
    (shared.account cleared address).Step conditions
      ((shared.removeUserProofs address).account cleared address) := by
  have empty : (shared.removeUserProofs address).batchQueue.entriesOf address = [] := by
    rw [BatchQueue.entriesOf, removeUserProofs_items, List.filter_filter]
    apply List.filter_eq_nil_iff.mpr
    intro entry _
    simp
  have dropped : (shared.removeUserProofs address).stateOf address = none := by
    simp [stateOf, removeUserProofs, notify]
  have same : (shared.removeUserProofs address).account cleared address =
      { shared.account cleared address with
        inFlight := (shared.account cleared address).inFlight
        queued := []
        state := none } := by
    rw [account, empty, dropped]
    rfl
  rw [same]
  exact .forget (.inl rfl)

theorem Shared.account_removeUserProofs_other {other : Address} (different : address ≠ other) :
    (shared.account cleared address).Step conditions
      ((shared.removeUserProofs other).account cleared address) := by
  refine account_keep ?_ ?_ rfl rfl
  · rw [BatchQueue.entriesOf, removeUserProofs_items, List.filter_filter]
    apply List.Perm.of_eq
    apply List.filter_congr
    intro entry _
    by_cases own : entry.sender = address
    · simp [own, different]
    · simp [own]
  · simp [stateOf, removeUserProofs, notify, Function.update_of_ne different]

/-- One user's entry gives way and another user's entry is accepted. -/
theorem Change.account_of_evict {task : TaskId} {layout : QueueLayout} {request : Request}
    {ref evictedRef : Ref} {balance : Nat} {target : BatchQueueEntry} {evicted : Shared}
    (owned : Owned system) (guarded : KeepsAccounts config system (.enqueue task layout))
    (grants : system.Grants environment config (.enqueue task layout) address conditions)
    (running : system.handlers task = some (request, .enqueue ref balance))
    (full : BatchState.isQueueFull config.maxQueueSize system.shared.batchQueue = true)
    (found : system.shared.evictionTarget layout system.locks
      request.noncedVerificationData.maxFee = some (evictedRef, target))
    (removed : system.shared.evict layout evictedRef target = .ok evicted) :
    (system.shared.account cleared address).Step conditions
      ((evicted.acceptEntry ref (System.newEntry environment request)).account cleared address) := by
  have current : system.shared.userStates request.addr = some ref :=
    System.When.running guarded.1 running rfl
  have fresh := System.When.running guarded.2 running rfl
  have other := owned.evicts_other running current found
  obtain ⟨present, free, ⟨priority, member⟩, -⟩ := Shared.evictionTarget_eq_some found
  have queued := mem_items_of_mem member
  have left : Shared.left (system.shared.evict layout evictedRef target) = evicted := by
    rw [removed, Shared.left]
  have queue : evicted.batchQueue = system.shared.batchQueue.erase target.key := by
    obtain ⟨userStates, cells, rfl⟩ := Shared.evict_eq_ok removed
    rfl
  have batch : evicted.batch = system.shared.batch := by
    obtain ⟨userStates, cells, rfl⟩ := Shared.evict_eq_ok removed
    rfl
  have users : evicted.userStates request.addr = some ref := by
    have same := Shared.evict_users layout evictedRef system.shared other
    rw [left] at same
    exact same.trans current
  have keeps : Shared.Keeps (fun _ => False) system.shared
      (Shared.left (system.shared.evict layout evictedRef target)) :=
    Shared.evict_keeps _ _ _ _ fun impossible => impossible
  rw [left] at keeps
  have separate := owned.separate.mono keeps.users
  have others : ∀ user, user ≠ target.sender →
      (evicted.batchQueue.entriesOf user).Perm (system.shared.batchQueue.entriesOf user) ∧
        evicted.stateOf user = system.shared.stateOf user := by
    intro user different
    constructor
    · rw [queue]
      exact (entriesOf_of_cons_other (items_erase_perm queued) (Ne.symm different)).symm
    · have same := @Shared.stateOf_evict_other user layout evictedRef target _ owned.separate
        present different
      rwa [left] at same
  by_cases own : address = request.addr
  · subst own
    obtain ⟨ownQueue, ownState⟩ := others request.addr other
    have cell : evicted.cells ref = system.shared.cells ref := by
      rw [Shared.stateOf, Shared.stateOf, users, current, Option.map_some, Option.map_some,
        Option.some.injEq] at ownState
      exact ownState
    refine @Shared.account_accept conditions system.shared cleared evicted
      (System.newEntry environment request) ref balance ownQueue ownState batch fresh ?_ users ?_
    · intro repeated
      apply fresh
      rw [queue] at repeated
      obtain ⟨stored, inErased, same⟩ := List.mem_map.mp repeated
      rw [Shared.live, List.map_append]
      apply List.mem_append_left
      exact List.mem_map.mpr ⟨stored, (mem_items_erase.mp inErased).1, same⟩
    · rw [cell]
      exact (owned.relies _ _ _ running).2.2
  · have unaffected := @Shared.account_accept_other address evicted
      (System.newEntry environment request) ref separate users own
    by_cases isTarget : address = target.sender
    · subst isTarget
      refine @Shared.account_evict _ _ layout _ _ _ _ queued present
        (grants.evictable target (.of_target running full found) rfl) ?_ ?_ batch
      · exact queue ▸ unaffected.1
      · rw [left]
        exact unaffected.2
    · obtain ⟨otherQueue, otherState⟩ := others address isTarget
      refine Shared.account_keep (unaffected.1.trans otherQueue) (unaffected.2.trans otherState)
        ?_ ?_
      · have same : (evicted.acceptEntry ref (System.newEntry environment request)).batch =
            system.shared.batch := batch
        simp only [Shared.inFlight, same]
      · have same : (evicted.acceptEntry ref (System.newEntry environment request)).batch =
            system.shared.batch := batch
        simp only [Shared.isOutdated, same]

/-- Whatever a step other than that of a flush does, it is a step of the account. -/
theorem Change.account (owned : Owned system) (keyed : Keyed system.shared)
    (guarded : KeepsAccounts config system label)
    (grants : system.Grants environment config label address conditions)
    (waits : cleared = true →
      ∃ batch address, system.shared.batch = some (batch, .insufficient address))
    (notFlush : label.isFlush = false)
    (change : Change environment config system label after) :
    (system.shared.account cleared address).Step conditions (after.account cleared address) := by
  have separate := owned.separate
  have whole : ∀ {batch : InFlight} {stage : Stage}, system.shared.batch = some (batch, stage) →
      (∀ user, stage ≠ .insufficient user) → cleared = false := by
    intro batch stage current different
    cases isCleared : cleared with
    | false => rfl
    | true =>
        obtain ⟨other, user, same⟩ := waits isCleared
        rw [current, Option.some.injEq, Prod.mk.injEq] at same
        exact absurd same.2 (different user)
  cases change with
  | @insertUser task request nonce running =>
      have absent := System.When.running guarded.1 running rfl
      by_cases own : address = request.addr
      · subst own
        have created := @Shared.stateOf_createUser_self request.addr system.shared nonce
        have same : (system.shared.createUser request.addr nonce).account cleared request.addr =
            { system.shared.account cleared request.addr with
              state := some (UserState.new nonce) } := by
          rw [Shared.account, created]
          rfl
        rw [same]
        refine .create ?_ (grants.creatable nonce (.insertUser running))
        apply List.eq_nil_iff_forall_not_mem.mpr
        intro entry member
        obtain ⟨live, sender⟩ := mem_live_of_account member
        exact absent entry live sender
      · exact Shared.account_keep (.refl _)
          (Shared.stateOf_createUser_other owned.users_lt own nonce) rfl rfl
  | @enqueue task layout request ref balance running room =>
      have current : system.shared.userStates request.addr = some ref :=
        System.When.running guarded.1 running rfl
      have fresh := System.When.running guarded.2 running rfl
      by_cases own : address = request.addr
      · subst own
        refine @Shared.account_accept conditions system.shared cleared system.shared
          (System.newEntry environment request) ref balance (.refl _) rfl rfl fresh ?_ current
          (owned.relies _ _ _ running).2.2
        intro queued
        apply fresh
        rw [Shared.live, List.map_append]
        exact List.mem_append_left _ queued
      · have unaffected := @Shared.account_accept_other address system.shared
          (System.newEntry environment request) ref separate current own
        exact Shared.account_keep unaffected.1 unaffected.2 rfl rfl
  | evict running full found removed =>
      exact Change.account_of_evict owned guarded grants running full found removed
  | @evictPanics task layout request ref evictedRef balance target _ running full found removed =>
      obtain ⟨present, -, ⟨priority, member⟩, -⟩ := Shared.evictionTarget_eq_some found
      have queued := mem_items_of_mem member
      have left : Shared.left (system.shared.evict layout evictedRef target) = after := by
        rw [removed, Shared.left]
      obtain ⟨userStates, cells, rfl⟩ := Shared.evict_eq_error removed
      by_cases isTarget : address = target.sender
      · subst isTarget
        refine @Shared.account_evict _ _ layout _ _ _ _ queued present
          (grants.evictable target (.of_target running full found) rfl) (.refl _) ?_ rfl
        rw [left]
      · refine Shared.account_keep ?_ ?_ rfl rfl
        · exact (entriesOf_of_cons_other (items_erase_perm queued) (Ne.symm isTarget)).symm
        · have same := @Shared.stateOf_evict_other address layout evictedRef target _ separate
            present isTarget
          rwa [left] at same
  | @replace task verifier request ref balance original running stored bumped valid =>
      obtain ⟨⟨priority, member⟩, key⟩ := BatchState.getEntry_eq_some stored
      have sameKey := @System.replacementEntry_key environment _ _ _ stored
      have sender : original.sender = request.addr := congrArg Prod.fst key
      have current : system.shared.userStates original.sender = some ref := by
        rw [sender]
        exact System.When.running guarded.1 running rfl
      by_cases own : address = original.sender
      · subst own
        exact @Shared.account_replace conditions
          (system.shared.notify [original] .proofReplaced) cleared original
          (System.replacementEntry environment request original) ref (mem_items_of_mem member)
          sameKey bumped valid current (grants.replacement _ (.replace running stored) rfl)
      · exact @Shared.account_replace_other address conditions
          (system.shared.notify [original] .proofReplaced) cleared original
          (System.replacementEntry environment request original) ref separate
          (mem_items_of_mem member) sameKey current own
  | extract idle =>
      refine Shared.account_extract keyed _ _ _ idle ?_
      cases isCleared : cleared with
      | false => rfl
      | true =>
          obtain ⟨batch, user, current⟩ := waits isCleared
          rw [idle] at current
          cases current
  | advance current unsent later =>
      refine Shared.account_enter current rfl ?_ ?_ ?_ rfl rfl
      · rw [Stage.isOpen_of_isUnsent unsent]
        exact (later.elim Stage.isOpen_of_isUnsent Stage.isOpen_of_isLost).symm
      · exact Shared.isOutdated_of_stage current (Stage.outdated_of_isUnsent unsent)
      · exact Shared.isOutdated_of_stage rfl
          (later.elim Stage.outdated_of_isUnsent Stage.outdated_of_isLost)
  | @send answer label batch stage next labelled current unsent answered =>
      have later : next.isOpen = true ∧ next.outdated = [] := by
        rcases answered with ⟨-, rfl⟩ | ⟨-, isUnsent | isLost⟩
        · exact ⟨rfl, rfl⟩
        · exact ⟨Stage.isOpen_of_isUnsent isUnsent, Stage.outdated_of_isUnsent isUnsent⟩
        · exact ⟨Stage.isOpen_of_isLost isLost, Stage.outdated_of_isLost isLost⟩
      refine Shared.account_enter current rfl ?_ ?_ ?_ rfl rfl
      · rw [Stage.isOpen_of_isUnsent unsent, later.1]
      · exact Shared.isOutdated_of_stage current (Stage.outdated_of_isUnsent unsent)
      · exact Shared.isOutdated_of_stage rfl later.2
  | giveUpWaiting current =>
      refine Shared.account_enter current rfl rfl ?_ rfl rfl rfl
      exact Shared.isOutdated_of_stage current rfl
  | endCancel current =>
      refine Shared.account_enter current rfl rfl ?_ rfl rfl rfl
      exact Shared.isOutdated_of_stage current rfl
  | @receipt batch id current included =>
      have before : system.shared.isOutdated address = false :=
        Shared.isOutdated_of_stage current rfl
      rw [Shared.account_updatingUsers]
      refine .settle ?_ ?_ (grants.settles rfl)
      · intro flying
        obtain ⟨entry, member⟩ := List.exists_mem_of_ne_nil _ flying
        obtain ⟨inBatch, sender⟩ := mem_account_inFlight member
        rw [Shared.inFlight_of_open current rfl] at inBatch
        exact List.contains_iff_mem.mpr (Shared.mem_sendersOf.mpr ⟨entry, inBatch, sender⟩)
      · intro outdated
        rw [Shared.account, before] at outdated
        cases outdated
  | @updateUser layout other batch users current member free =>
      by_cases own : address = other
      · subst own
        exact Shared.account_updateUser current rfl rfl
      · have state := @Shared.stateOf_updateUser_other address _ layout _ separate own
        obtain ⟨cells, equation⟩ := Shared.updateUser_eq layout other system.shared
        rw [equation] at state ⊢
        refine Shared.account_keep (.refl _) state ?_ ?_
        · rw [Shared.inFlight_of_not_open current rfl]
          exact Shared.inFlight_of_not_open rfl rfl
        · exact Shared.isOutdated_of_erase current rfl own rfl
  | @updateRestoredUser layout other batch users current member free =>
      by_cases own : address = other
      · subst own
        exact Shared.account_updateUser current rfl rfl
      · have state := @Shared.stateOf_updateUser_other address _ layout _ separate own
        obtain ⟨cells, equation⟩ := Shared.updateUser_eq layout other system.shared
        rw [equation] at state ⊢
        refine Shared.account_keep (.refl _) state ?_ ?_
        · rw [Shared.inFlight_of_not_open current rfl]
          exact Shared.inFlight_of_not_open rfl rfl
        · exact Shared.isOutdated_of_erase current rfl own rfl
  | @cleanupUser layout other batch users current free =>
      have before : system.shared.isOutdated address = false :=
        Shared.isOutdated_of_stage current rfl
      by_cases own : address = other
      · subst own
        exact Shared.account_cleanupUser current rfl before
      · have state := @Shared.stateOf_cleanupUser_other address _ layout _ separate own
        obtain ⟨cells, equation⟩ := Shared.cleanupUser_eq layout other system.shared
        rw [equation] at state ⊢
        exact Shared.account_enter current rfl rfl before rfl rfl state
  | @close label batch stage later current closed updated isLater =>
      refine Shared.account_enter current rfl ?_ ?_ ?_ rfl rfl
      · rw [Stage.not_isOpen_of_isClosed closed]
        rcases isLater with ⟨users, rfl⟩ | rfl
        · rfl
        · rfl
      · refine Shared.isOutdated_of_stage current ?_
        cases stage with
        | updatingUsers users => exact updated users rfl
        | restored users => cases closed
        | _ => rfl
      · refine Shared.isOutdated_of_stage rfl ?_
        rcases isLater with ⟨users, rfl⟩ | rfl
        · rfl
        · rfl
  | endRestored current =>
      refine Shared.account_keep (.refl _) rfl ?_ ?_
      · rw [Shared.inFlight_of_not_open current rfl]
        exact Shared.inFlight_of_none rfl
      · exact (Shared.isOutdated_of_stage current rfl).symm
  | @respond fails batch current =>
      have idle := Shared.respond_batch guarded.1 current
      refine Shared.account_keep (.refl _) rfl ?_ ?_
      · rw [Shared.inFlight_of_not_open current rfl, Shared.inFlight_of_none idle]
      · rw [Shared.isOutdated_of_stage current rfl]
        rw [Shared.isOutdated, idle]
  | @restore layout batch restored current ran =>
      exact Shared.account_restore keyed current (guarded.2.current current)
        (whole current (by simp)) (grants.restorable layout batch rfl current) ran
  | flush => cases notFlush
  | flushAndReset labelled flushing =>
      rw [labelled] at notFlush
      cases notFlush
  | insertNonpaying flushing configured => cases notFlush
  | @removeUserProofs other polled =>
      by_cases own : address = other
      · subst own
        exact Shared.account_removeUserProofs
      · exact Shared.account_removeUserProofs_other own
  | _ => exact Shared.account_keep (.refl _) rfl rfl rfl

/-- A flush forgets every account, whatever becomes of the batch. -/
theorem Shared.account_flush (flag : Bool) :
    (shared.account false address).Step conditions (shared.flush.account flag address) := by
  have same : shared.flush.account flag address =
      { shared.account false address with
        inFlight := if flag then [] else (shared.account false address).inFlight
        queued := []
        state := none } := by
    cases flag <;> rfl
  rw [same]
  refine .forget ?_
  cases flag with
  | true => exact .inr rfl
  | false => exact .inl rfl

theorem Shared.account_afterFlush {origin : FlushOrigin}
    (waits : origin = .insufficientBalance →
      ∃ batch user, shared.batch = some (batch, .insufficient user)) :
    (shared.account false address).Step conditions
      ((shared.flush.afterFlush origin).account false address) := by
  cases origin with
  | disabledVerifiers => exact account_flush false
  | insufficientBalance =>
      obtain ⟨batch, user, current⟩ := waits rfl
      have sameBatch : shared.flush.batch = some (batch, .insufficient user) := current
      have same : (shared.flush.afterFlush .insufficientBalance).account false address =
          { shared.account false address with
            inFlight := []
            queued := []
            state := none } := by
        simp only [afterFlush, sameBatch, account, isOutdated, current]
        rfl
      rw [same]
      exact .forget (.inr rfl)

end Steps

/-- The account of the address that pays for the non-paying one is created at
the end of a flush. -/
theorem Shared.account_insertNonpaying {shared : Shared} {origin : FlushOrigin} {user : Address}
    {nonce : Nat} (bound : ∀ address ref, shared.userStates address = some ref →
      ref < shared.nextRef)
    (waits : origin = .insufficientBalance →
      ∃ batch user, shared.batch = some (batch, .insufficient user))
    (absent : ∀ entry ∈ (shared.afterFlush origin).live, entry.sender ≠ user)
    (granted : address = user → conditions.creatable nonce) :
    (shared.account (origin = .insufficientBalance) address).Step conditions
      (((shared.createUser user nonce).afterFlush origin).account false address) := by
  have landed : ((shared.createUser user nonce).afterFlush origin).account false address =
      { shared.account (origin = .insufficientBalance) address with
        state := (shared.createUser user nonce).stateOf address } := by
    cases origin with
    | disabledVerifiers => rfl
    | insufficientBalance =>
        obtain ⟨batch, other, current⟩ := waits rfl
        have sameBatch : (shared.createUser user nonce).batch = some (batch, .insufficient other) :=
          current
        simp only [afterFlush, sameBatch, account, isOutdated, current]
        rfl
  rw [landed]
  by_cases own : address = user
  · subst own
    rw [stateOf_createUser_self]
    refine .create ?_ (granted rfl)
    apply List.eq_nil_iff_forall_not_mem.mpr
    intro entry member
    cases origin with
    | disabledVerifiers =>
        obtain ⟨live, sender⟩ := mem_live_of_account member
        exact absent entry live sender
    | insufficientBalance =>
        obtain ⟨batch, other, current⟩ := waits rfl
        have queued : entry ∈ shared.batchQueue.entriesOf address := member
        obtain ⟨stored, sender⟩ := mem_entriesOf.mp queued
        refine absent entry (List.mem_append_left _ ?_) sender
        rw [afterFlush_batchQueue]
        exact stored
  · rw [stateOf_createUser_other bound own]
    exact .keep (.refl _)

/-- Every step of the batcher is a step of every account. -/
theorem step_account (owned : Owned system) (keyed : Keyed system.shared)
    (waits : FlushWaits system) (guarded : KeepsAccounts config system label)
    (grants : system.Grants environment config label address conditions)
    (stepped : (batcher environment config).step system label = some next) :
    (system.account address).Step conditions (next.account address) := by
  have waitsFor : ∀ {origin : FlushOrigin} {stage : FlushStage},
      system.flush = some (origin, stage) → origin = .insufficientBalance →
        ∃ batch user, system.shared.batch = some (batch, .insufficient user) := by
    rintro origin stage flushing rfl
    exact waits stage flushing
  have idle : ∀ origin (system : System), (system.finishFlush origin).isCleared = false := by
    intro origin system
    have control := congrArg Control.flush (System.finishFlush_control origin system)
    rw [Control.finishFlush_flush] at control
    have ended : (system.finishFlush origin).flush = none := control
    rw [System.isCleared, ended]
  cases isFlush : label.isFlush with
  | true =>
      cases label with
      | fetchNonpayingNonce answered =>
          simp only [batcher, System.fetchNonpayingNonce] at stepped
          split at stepped
          · next origin user flushing configured =>
              have before := System.isCleared_eq_false flushing (by simp)
              split at stepped
              · cases stepped
                rw [System.account, System.account, before,
                  @System.isCleared_eq_false _ origin _ rfl (by simp)]
                exact .keep (.refl _)
              · cases stepped
                rw [System.account, System.account, before, idle, System.finishFlush_shared]
                exact Shared.account_afterFlush (waitsFor flushing)
          · cases stepped
      | clearQueue =>
          simp only [batcher, System.clearQueue] at stepped
          split at stepped
          · next origin flushing configured =>
              have before := System.isCleared_eq_false flushing (by simp)
              cases stepped
              rw [System.account, System.account, before, idle, System.finishFlush_shared]
              exact Shared.account_afterFlush (waitsFor flushing)
          · next origin nonce user flushing configured =>
              have before := System.isCleared_eq_false flushing (by simp)
              cases stepped
              rw [System.account, System.account, before]
              exact Shared.account_flush _
          · cases stepped
      | insertNonpaying =>
          simp only [batcher, System.insertNonpaying] at stepped
          split at stepped
          · next origin nonce user flushing configured =>
              have before : system.isCleared = decide (origin = .insufficientBalance) := by
                rw [System.isCleared, flushing]
                cases origin <;> rfl
              cases stepped
              rw [System.account, System.account, before, idle, System.finishFlush_shared]
              exact Shared.account_insertNonpaying owned.users_lt (waitsFor flushing)
                (guarded.1 _ flushing _ configured)
                fun own => grants.creatable nonce (own ▸ .insertNonpaying flushing configured)
          · cases stepped
      | _ => cases isFlush
  | false =>
      have change := step_change stepped
      by_cases starts : ∃ origin, label = .startFlush origin
      · obtain ⟨origin, rfl⟩ := starts
        obtain ⟨none, rfl, -, -⟩ := startFlush_cases stepped
        have before : system.isCleared = false := by rw [System.isCleared, none]
        have now : System.isCleared { system with flush := some (origin, .started) } = false :=
          System.isCleared_eq_false rfl (by simp)
        rw [System.account, System.account, before, now]
        exact .keep (.refl _)
      · have same := step_flush_same (fun origin labelled => starts ⟨origin, labelled⟩) isFlush
          stepped
        have sameFlag : next.isCleared = system.isCleared := by
          rw [System.isCleared, System.isCleared, same]
        rw [System.account, System.account, sameFlag]
        exact change.account owned keyed guarded grants waits.of_isCleared isFlush

/-! ## The invariants behind the accounts -/

/-- What the accounts of a run rest on. -/
structure KeepsBooks (system : System) : Prop where
  owned : Owned system
  keyed : Keyed system.shared
  waits : FlushWaits system

theorem keepsBooks_step (books : KeepsBooks system) (guarded : KeepsAccounts config system label)
    (stepped : (batcher environment config).step system label = some next) : KeepsBooks next where
  owned := owned_step books.owned stepped
  keyed := (step_change stepped).keyed books.keyed guarded
  waits := flushWaits_step books.waits stepped

/-- At the start every account is empty. -/
theorem account_initial (config : Config) (chain : Chain)
    (disabledVerifiers lastUploadedBatchBlock : Nat) (address : Address) :
    ∃ state, (initialSystem config chain disabledVerifiers lastUploadedBatchBlock).account address =
        { inFlight := []
          queued := []
          state := state
          outdated := false } ∧
      ∀ known ∈ state, known = UserState.new (chain.userNonce address) := by
  have created : ∀ known ∈ (Shared.initial config chain).stateOf address,
      known = UserState.new (chain.userNonce address) := by
    intro known member
    rw [Shared.initial] at member
    cases configured : config.nonpayingReplacementAddr with
    | none =>
        rw [configured] at member
        cases member
    | some paying =>
        rw [configured] at member
        by_cases own : address = paying
        · subst own
          rw [Shared.stateOf_createUser_self] at member
          cases member
          rfl
        · rw [Shared.stateOf_createUser_other (fun _ _ found => by cases found) own] at member
          cases member
  obtain ⟨userStates, cells, nextRef, equation⟩ := Shared.initial_eq config chain
  refine ⟨(Shared.initial config chain).stateOf address, ?_, created⟩
  simp only [System.account, initialSystem, equation]
  rfl

theorem keepsBooks_initial (config : Config) (chain : Chain)
    (disabledVerifiers lastUploadedBatchBlock : Nat) :
    KeepsBooks (initialSystem config chain disabledVerifiers lastUploadedBatchBlock) := by
  obtain ⟨userStates, cells, nextRef, equation⟩ := Shared.initial_eq config chain
  refine ⟨owned_initial _ _ _ _, ⟨?_, ?_⟩, fun stage flushing => by cases flushing⟩
  · simp only [initialSystem, equation]
    intro stored member
    cases member
  · simp only [initialSystem, equation]
    exact List.nodup_nil

/-- Nothing is added to the queue during a flush. -/
theorem isCleared_of_enqueue {task : TaskId} {layout : QueueLayout} {request : Request} {ref : Ref}
    {balance : Nat} (running : system.handlers task = some (request, .enqueue ref balance))
    (stepped : (batcher environment config).step system (.enqueue task layout) = some next) :
    system.isCleared = false := by
  simp only [batcher, System.enqueue, running] at stepped
  split at stepped
  · cases stepped
  · next idle =>
      have none := Option.not_isSome_iff_eq_none.mp idle
      rw [System.isCleared, none]

/-- A handler that adds its proof to a current state has checked it against
that state. -/
theorem enqueue_admits {task : TaskId} {request : Request} {ref : Ref} {balance : Nat}
    (owned : Owned system) (running : system.handlers task = some (request, .enqueue ref balance))
    (current : system.shared.userStates request.addr = some ref) :
    ∃ state ∈ (system.account request.addr).state,
      state.Admits request.noncedVerificationData balance := by
  refine ⟨system.shared.cells ref, ?_, (owned.relies _ _ _ running).2.2⟩
  rw [System.account, Shared.account, Shared.stateOf, current]
  rfl

end AlignedLayer
