import AlignedLayer.Batcher.NonceOrder
import AlignedLayer.Batcher.OnChainNonce
import Mathlib.Order.Interval.Finset.Nat

/-!
# The next nonce of a user

The nonce the batcher expects next is the nonce of the chain, counted on over
the user's entries that are waiting.  The nonces of these entries are exactly
the ones in between, so that none is accepted a second time.
-/

namespace AlignedLayer

/-- Different numbers in a range are no more than the range has. -/
theorem length_le_sub_of_nodup {numbers : List Nat} {low high : Nat} (distinct : numbers.Nodup)
    (within : ∀ number ∈ numbers, low ≤ number ∧ number < high) : numbers.length ≤ high - low := by
  calc numbers.length
      = numbers.toFinset.card := (List.toFinset_card_of_nodup distinct).symm
    _ ≤ (Finset.Ico low high).card := by
      apply Finset.card_le_card
      intro number member
      exact Finset.mem_Ico.mpr (within number (List.mem_toFinset.mp member))
    _ = high - low := Nat.card_Ico low high

/-! ## One account -/

namespace Account

variable {account next : Account} {base : Nat} {entry : BatchQueueEntry}

/-- The entries have the nonces from `base` on, and the state the next one. -/
structure Numbered (base : Nat) (account : Account) : Prop where
  range : ∀ entry ∈ account.live,
    base ≤ entry.nonce ∧ entry.nonce < base + account.live.length
  next : ∀ state ∈ account.state, state.nonce = base + account.live.length

/-- Only the last entry gives way, and a state without entries starts at
`base`. -/
def numbering (base : Nat) (account : Account) : Conditions where
  creatable nonce := account.live = [] → nonce = base
  evictable entry := ∀ other ∈ account.queued, other.nonce ≤ entry.nonce
  replacement _ := True
  settles := False
  restorable := True

namespace Numbered

theorem of_empty (empty : account.live = [])
    (next : ∀ state ∈ account.state, state.nonce = base) : account.Numbered base where
  range entry member := by
    rw [empty] at member
    cases member
  next state known := by
    rw [empty]
    exact next state known

/-- The same nonces with another state of the same nonce, or without one. -/
theorem of_nonces (numbered : account.Numbered base)
    (nonces : (next.live.map BatchQueueEntry.nonce).Perm (account.live.map BatchQueueEntry.nonce))
    (states : ∀ state ∈ next.state, ∃ earlier ∈ account.state, earlier.nonce = state.nonce) :
    next.Numbered base := by
  have length : next.live.length = account.live.length := by
    have lengths := nonces.length_eq
    rwa [List.length_map, List.length_map] at lengths
  constructor
  · intro entry member
    obtain ⟨earlier, earlierMember, same⟩ :=
      List.mem_map.mp (nonces.mem_iff.mp (List.mem_map_of_mem member))
    rw [length, ← same]
    exact numbered.range earlier earlierMember
  · intro state known
    obtain ⟨earlier, earlierKnown, same⟩ := states state known
    rw [length, ← same]
    exact numbered.next earlier earlierKnown

theorem of_perm (numbered : account.Numbered base) (moved : next.live.Perm account.live)
    (states : ∀ state ∈ next.state, ∃ earlier ∈ account.state, earlier.nonce = state.nonce) :
    next.Numbered base :=
  numbered.of_nonces (moved.map _) states

/-- Without its last entry. -/
theorem of_evicted (numbered : account.Numbered base)
    (moved : account.live.Perm (entry :: next.live))
    (highest : ∀ other ∈ next.live, other.nonce < entry.nonce)
    (states : ∀ state ∈ next.state, ∃ earlier ∈ account.state, state.nonce = earlier.nonce - 1) :
    next.Numbered base := by
  have length : account.live.length = next.live.length + 1 := moved.length_eq
  constructor
  · intro other member
    have less := highest other member
    have last := numbered.range entry (moved.mem_iff.mpr List.mem_cons_self)
    have within := numbered.range other (moved.mem_iff.mpr (List.mem_cons_of_mem _ member))
    omega
  · intro state known
    obtain ⟨earlier, earlierKnown, same⟩ := states state known
    have before := numbered.next earlier earlierKnown
    omega

/-- The entries in flight have the first nonces. -/
theorem inFlight_lt (numbered : account.Numbered base) (ordered : account.Ordered)
    (flying : entry ∈ account.inFlight) : entry.nonce < base + account.inFlight.length := by
  have live : account.live.length = account.inFlight.length + account.queued.length :=
    List.length_append
  have own := numbered.range entry (List.mem_append_left _ flying)
  have above : (account.queued.map BatchQueueEntry.nonce).length ≤
      base + account.live.length - (entry.nonce + 1) := by
    apply length_le_sub_of_nodup
    · exact (List.map_append ▸ ordered.distinct).of_append_right
    · intro nonce member
      obtain ⟨high, highMember, rfl⟩ := List.mem_map.mp member
      have within := numbered.range high (List.mem_append_right _ highMember)
      exact ⟨ordered.below entry flying high highMember, within.2⟩
  rw [List.length_map] at above
  omega

/-- The queued entries have the nonces after those in flight. -/
theorem le_queued (numbered : account.Numbered base) (ordered : account.Ordered)
    (queued : entry ∈ account.queued) : base + account.inFlight.length ≤ entry.nonce := by
  have own := numbered.range entry (List.mem_append_right _ queued)
  have before : (account.inFlight.map BatchQueueEntry.nonce).length ≤ entry.nonce - base := by
    apply length_le_sub_of_nodup
    · exact (List.map_append ▸ ordered.distinct).of_append_left
    · intro nonce member
      obtain ⟨low, lowMember, rfl⟩ := List.mem_map.mp member
      have within := numbered.range low (List.mem_append_left _ lowMember)
      exact ⟨within.1, ordered.below low lowMember entry queued⟩
  rw [List.length_map] at before
  omega

/-- The chain has counted the entries in flight. -/
theorem settle (numbered : account.Numbered base) (ordered : account.Ordered) (outdated : Bool) :
    Numbered (base + account.inFlight.length)
      { account with
        inFlight := []
        outdated } := by
  have live : account.live.length = account.inFlight.length + account.queued.length :=
    List.length_append
  constructor
  · intro entry member
    have within := numbered.range entry (List.mem_append_right _ member)
    have above := numbered.le_queued ordered member
    refine ⟨above, ?_⟩
    change entry.nonce < base + account.inFlight.length + account.queued.length
    omega
  · intro state known
    have next := numbered.next state known
    change state.nonce = base + account.inFlight.length + account.queued.length
    omega

theorem step (numbered : account.Numbered base) (ordered : account.Ordered)
    (step : Step (account.numbering base) account next) : next.Numbered base := by
  cases step with
  | keep moved => exact numbered.of_perm (moved.append_left _) fun state known => ⟨state, known, rfl⟩
  | create nothing granted =>
      refine @of_empty { account with state := some (UserState.new _) } base nothing ?_
      rintro - ⟨⟩
      exact granted nothing
  | @accept state entry queued known stored fresh next limited =>
      have moved : (account.inFlight ++ queued).Perm (entry :: account.live) :=
        (stored.append_left _).trans List.perm_middle
      have length : (account.inFlight ++ queued).length = account.live.length + 1 :=
        moved.length_eq
      have last := numbered.next state known
      constructor
      · intro other member
        change base ≤ other.nonce ∧ other.nonce < base + (account.inFlight ++ queued).length
        rw [length]
        rcases List.mem_cons.mp (moved.mem_iff.mp member) with rfl | earlier
        · omega
        · have within := numbered.range other earlier
          omega
      · rintro - ⟨⟩
        change entry.nonce + 1 = base + (account.inFlight ++ queued).length
        omega
  | @evict state entry last queued known removed others left granted =>
      refine numbered.of_evicted (live_perm_of_cons removed)
        (ordered.lt_evicted removed granted) ?_
      rintro - ⟨⟩
      have within := numbered.range entry
        ((live_perm_of_cons removed).mem_iff.mpr List.mem_cons_self)
      have next := numbered.next state known
      exact ⟨state, known, evictedState_nonce (by omega)⟩
  | evictOnly known only granted =>
      refine numbered.of_evicted (live_perm_of_cons only) (ordered.lt_evicted only granted) ?_
      rintro - ⟨⟩
  | @replace state original replacement others queued known before after nonce bumped valid
      granted =>
      refine numbered.of_nonces ?_ ?_
      · have stored : (account.inFlight ++ queued).Perm
            (replacement :: (account.inFlight ++ others)) :=
          (after.append_left _).trans List.perm_middle
        have same : (replacement :: (account.inFlight ++ others)).map BatchQueueEntry.nonce =
            (original :: (account.inFlight ++ others)).map BatchQueueEntry.nonce := by
          rw [List.map_cons, List.map_cons, nonce]
        exact ((stored.map _).trans (.of_eq same)).trans
          ((live_perm_of_cons before).map _).symm
      · rintro - ⟨⟩
        exact ⟨state, known, rfl⟩
  | take idle moved ahead =>
      exact numbered.of_perm (live_of_settled idle ▸ moved.symm) fun state known =>
        ⟨state, known, rfl⟩
  | settle users waits granted => exact granted.elim
  | recompute settled =>
      refine numbered.of_perm (.refl _) fun state known => ?_
      obtain ⟨earlier, earlierKnown, rfl⟩ := Option.mem_map.mp known
      exact ⟨earlier, earlierKnown, rfl⟩
  | unlimit nothing =>
      refine numbered.of_perm (.refl _) fun state known => ?_
      obtain ⟨earlier, earlierKnown, rfl⟩ := Option.mem_map.mp known
      exact ⟨earlier, earlierKnown, rfl⟩
  | restore stored users current granted =>
      exact numbered.of_perm stored fun state known => ⟨state, known, rfl⟩
  | forget subset =>
      rcases subset with rfl | rfl
      · constructor
        · intro entry member
          simp only [Account.live, List.append_nil] at member ⊢
          exact ⟨(numbered.range entry (List.mem_append_left _ member)).1,
            numbered.inFlight_lt ordered member⟩
        · rintro - ⟨⟩
      · apply of_empty rfl
        rintro - ⟨⟩

end Numbered

end Account

/-! ## Every run -/

/-- The nonce a flush is about to create a user with. -/
def FlushStage.inserting : FlushStage → Option Nat
  | .cleared nonpayingNonce => some nonpayingNonce
  | _ => none

/-- The condition on a step under which nonces are counted on from that of the
chain. -/
def KeepsNonces (config : Config) (system : System) (label : Label) : Prop :=
  KeepsNonceOrder config system label ∧ ErrorsAreFinal system label ∧
    match label with
    | .insertUser task => system.When Phase.inserting (fun request nonce =>
        nonce = system.shared.chain.userNonce request.addr) task
    | .insertNonpaying => ∀ flush ∈ system.flush, ∀ nonce ∈ flush.2.inserting,
        ∀ address ∈ config.nonpayingReplacementAddr, nonce = system.shared.chain.userNonce address
    | .receipt => system.shared.OfBatch fun batch =>
        system.shared.chain.isMined batch.number = true
    | _ => True

instance (config : Config) (system : System) (label : Label) :
    Decidable (KeepsNonces config system label) := by
  apply @Label.casesOn (fun label => Decidable (KeepsNonces config system label)) label
  all_goals intros
  all_goals dsimp only [KeepsNonces]
  all_goals infer_instance

section Run

variable {environment : Environment} {config : Config} {system next : System} {label : Label}
  {address : Address}

def ofSender (address : Address) (entries : List BatchQueueEntry) : List BatchQueueEntry :=
  entries.filter fun entry => entry.sender = address

/-- The chain has counted from `base` on over what it has mined of the batch
in flight, and every nonce it has charged is behind its own. -/
structure NumberedUser (address : Address) (base : Nat) (system : System) : Prop where
  onChain : system.shared.chain.userNonce address =
    base + (ofSender address system.shared.mined).length
  numbered : (system.account address).Numbered base
  charged : ∀ entry ∈ system.shared.chain.charged, entry.sender = address →
    entry.nonce < system.shared.chain.userNonce address

structure NumberedUsers (system : System) : Prop extends OrderedUsers system where
  submitted : Submitted system.shared
  calls : CallsMatch system.shared
  numbered : ∀ address, ∃ base, NumberedUser address base system
  cleared : system.isCleared = true → ∀ address, system.shared.userStates address ≠ none →
    ∀ entry ∈ system.shared.inFlight, entry.sender ≠ address

namespace NumberedUsers

theorem inFlight_account (whole : system.isCleared = false) :
    (system.account address).inFlight = ofSender address system.shared.inFlight :=
  Shared.inFlight_filter_account whole

/-- Nothing of a user without entries is mined. -/
theorem ofSender_mined (users : NumberedUsers system) (empty : (system.account address).live = []) :
    ofSender address system.shared.mined = [] := by
  cases isCleared : system.isCleared with
  | true =>
      obtain ⟨batch, user, current⟩ := users.waits.of_isCleared isCleared
      rw [Shared.mined_of_not_mayBeMined users.submitted current rfl]
      rfl
  | false =>
      have settled := (List.append_eq_nil_iff.mp empty).1
      rw [inFlight_account isCleared, ← Shared.mined_append_unmined, ofSender, List.filter_append]
        at settled
      exact (List.append_eq_nil_iff.mp settled).1

theorem grants (users : NumberedUsers system) (guarded : KeepsNonces config system label)
    {base : Nat} (numbered : NumberedUser address base system) (notReceipt : label ≠ .receipt) :
    system.Grants environment config label address ((system.account address).numbering base) where
  creatable nonce creates empty := by
    have onChain := numbered.onChain
    rw [users.ofSender_mined empty] at onChain
    cases creates with
    | insertUser running =>
        exact (System.When.running guarded.2.2 running rfl).trans onChain
    | insertNonpaying flushing configured =>
        exact (guarded.2.2 _ flushing _ rfl _ configured).trans onChain
  evictable entry evicts sender := by
    have granted : system.Grants environment config label address
        (system.account address).orderly := OrderedUsers.grants guarded.1 address
    exact (granted.evictable entry evicts sender).1
  replacement _ _ _ := trivial
  settles isReceipt := notReceipt isReceipt
  restorable _ _ _ _ := trivial

/-- The receipt of the batch ends its flight. -/
theorem numbered_receipt (users : NumberedUsers system)
    (guarded : KeepsNonces config system .receipt)
    (stepped : (batcher environment config).step system .receipt = some next) {base : Nat}
    (numbered : NumberedUser address base system) : ∃ base, NumberedUser address base next := by
  simp only [batcher, System.receipt] at stepped
  split at stepped
  · next batch id current =>
      split at stepped
      · cases stepped
        have whole := users.waits.isCleared_eq_false current (by simp)
        have isMined := Shared.OfBatch.current guarded.2.2 current
        have onChain := numbered.onChain
        rw [Shared.mined_of_mined current isMined, ← inFlight_account whole] at onChain
        have nothing : Shared.mined (system.shared.enter batch
            (.updatingUsers (sendersOf batch.entries))) = [] := Shared.mined_of_closed rfl rfl
        refine ⟨base + (system.account address).inFlight.length, ?_, ?_, numbered.charged⟩
        · rw [System.withShared_shared, nothing]
          exact onChain
        · have settled := numbered.numbered.settle (users.ordered address)
            ((sendersOf batch.entries).contains address)
          rwa [System.account, ← Shared.account_updatingUsers] at settled
      · cases stepped
  · cases stepped

theorem numbered_step (users : NumberedUsers system) (guarded : KeepsNonces config system label)
    (stepped : (batcher environment config).step system label = some next) (address : Address) :
    ∃ base, NumberedUser address base next := by
  obtain ⟨base, numbered⟩ := users.numbered address
  by_cases isReceipt : label = .receipt
  · subst isReceipt
    exact users.numbered_receipt guarded stepped numbered
  · have keeps := users.keepsAccounts guarded.1 stepped
    have step := step_account users.owned users.keyed users.waits keeps
      (users.grants guarded numbered isReceipt) stepped
    have after := numbered.numbered.step (users.ordered address) step
    refine ⟨base, ?_, after, ?_⟩
    · rcases (step_change stepped).counts users.waits users.submitted users.calls guarded.2.1
        isReceipt with same | ⟨batch, stage, counts⟩
      · rw [same.nonces, same.mined]
        exact numbered.onChain
      · have onChain := numbered.onChain
        rw [counts.before] at onChain
        rw [counts.nonces, counts.mined, onChain]
        rfl
    · rcases (step_change stepped).counts users.waits users.submitted users.calls guarded.2.1
        isReceipt with same | ⟨batch, stage, counts⟩
      · rw [same.charged, same.nonces]
        exact numbered.charged
      · have whole := users.waits.isCleared_eq_false counts.current counts.sent
        have onChain := numbered.onChain
        rw [counts.before] at onChain
        rw [counts.charged, counts.nonces, onChain]
        intro entry member sender
        rcases List.mem_append.mp member with before | inBatch
        · have earlier := numbered.charged entry before sender
          rw [onChain] at earlier
          exact earlier.trans_le (Nat.le_add_right _ _)
        · have flying := Shared.inFlight_of_open counts.current counts.isOpen
          have own : entry ∈ (system.account address).inFlight := by
            rw [inFlight_account whole, flying]
            exact List.mem_filter.mpr ⟨inBatch, decide_eq_true sender⟩
          have less := numbered.numbered.inFlight_lt (users.ordered address) own
          rwa [inFlight_account whole, flying] at less

/-- No user with an entry of the batch is created while the queue is cleared
for the batch. -/
theorem cleared_step (users : NumberedUsers system) (guarded : KeepsNonces config system label)
    (stepped : (batcher environment config).step system label = some next)
    (isCleared : next.isCleared = true) (address : Address)
    (present : next.shared.userStates address ≠ none) :
    ∀ entry ∈ next.shared.inFlight, entry.sender ≠ address := by
  cases isFlush : label.isFlush with
  | true =>
      have step := step_of_isFlush isFlush stepped
      have control : ∃ flow, next.control.flush = some (.insufficientBalance, .cleared flow) := by
        unfold System.isCleared at isCleared
        split at isCleared
        · exact ⟨_, ‹_›⟩
        · cases isCleared
      generalize next.shared = after at step present
      generalize next.control = reached at step control
      cases step with
      | fetched flushing => simp at control
      | cleared flushing => exact absurd rfl present
      | finished flushing => simp at control
      | inserted flushing => simp at control
  | false =>
      by_cases starts : ∃ origin, label = .startFlush origin
      · obtain ⟨origin, rfl⟩ := starts
        obtain ⟨-, rfl, -, -⟩ := startFlush_cases stepped
        rw [System.isCleared_eq_false rfl (by simp)] at isCleared
        cases isCleared
      · have same := step_flush_same (fun origin labelled => starts ⟨origin, labelled⟩) isFlush
          stepped
        have before : system.isCleared = true := by
          rw [System.isCleared, ← same]
          exact isCleared
        obtain ⟨batch, user, current⟩ := users.waits.of_isCleared before
        have flying : next.shared.inFlight = system.shared.inFlight := by
          rw [Shared.inFlight_of_open current rfl,
            Shared.inFlight_of_open (batch_of_insufficient (step_change stepped) isFlush current) rfl]
        rw [flying]
        by_cases absent : system.shared.userStates address = none
        · have step := @step_account environment config system next label address
            { creatable := fun _ => ∀ entry ∈ system.shared.inFlight, entry.sender ≠ address
              evictable := fun _ => True
              replacement := fun _ => True
              settles := True
              restorable := True }
            users.owned users.keyed users.waits (users.keepsAccounts guarded.1 stepped)
            ⟨?_, fun _ _ _ => trivial, fun _ _ _ => trivial, fun _ => trivial,
              fun _ _ _ _ => trivial⟩ stepped
          · obtain ⟨nonce, nothing⟩ := step.creates (by simp [System.account, Shared.account,
              Shared.stateOf, absent]) (by simpa [System.account, Shared.account,
              Shared.stateOf] using present)
            exact nothing
          · intro nonce creates
            cases creates with
            | insertUser running =>
                intro entry member
                exact System.When.running guarded.1.1 running rfl entry
                  (List.mem_append_right _ member)
            | insertNonpaying flushing configured => cases isFlush
        · exact users.cleared before address absent

end NumberedUsers

theorem numberedUsers_step (users : NumberedUsers system)
    (guarded : KeepsNonces config system label)
    (stepped : (batcher environment config).step system label = some next) :
    NumberedUsers next where
  toOrderedUsers := orderedUsers_step users.toOrderedUsers guarded.1 stepped
  submitted := (step_change stepped).submitted users.waits users.submitted guarded.2.1
  calls := (step_change stepped).callsMatch users.calls
  numbered := users.numbered_step guarded stepped
  cleared := users.cleared_step guarded stepped

/-- The nonce after everything that waits. -/
theorem NumberedUsers.exact (users : NumberedUsers system) {ref : Ref}
    (present : system.shared.userStates address = some ref) :
    (system.shared.cells ref).nonce = system.shared.chain.userNonce address +
      (ofSender address system.shared.unmined).length +
      (system.shared.batchQueue.entriesOf address).length := by
  obtain ⟨base, numbered⟩ := users.numbered address
  have onChain := numbered.onChain
  have known : system.shared.cells ref ∈ (system.account address).state := by
    rw [System.account, Shared.account, Shared.stateOf, present]
    rfl
  have next := numbered.numbered.next _ known
  have live : (system.account address).live.length = (system.account address).inFlight.length +
      (system.shared.batchQueue.entriesOf address).length := List.length_append
  have split : (ofSender address system.shared.inFlight).length =
      (ofSender address system.shared.mined).length +
        (ofSender address system.shared.unmined).length := by
    rw [← Shared.mined_append_unmined, ofSender, List.filter_append, List.length_append]
    rfl
  cases isCleared : system.isCleared with
  | false =>
      rw [NumberedUsers.inFlight_account isCleared] at live
      omega
  | true =>
      have settled : (system.account address).inFlight = [] := by
        rw [System.account, Shared.account, isCleared]
        rfl
      have nothing : ofSender address system.shared.inFlight = [] := by
        refine List.filter_eq_nil_iff.mpr fun entry flying own => ?_
        exact users.cleared isCleared address (by rw [present]; simp) entry flying
          (of_decide_eq_true own)
      rw [settled, List.length_nil] at live
      rw [nothing, List.length_nil] at split
      omega

/-- A key that is accepted was not accepted before, unless its entry has left. -/
theorem NumberedUsers.fresh (users : NumberedUsers system) {task : TaskId} {request : Request}
    {ref : Ref} {balance : Nat}
    (running : system.handlers task = some (request, .enqueue ref balance))
    (current : system.shared.userStates request.addr = some ref)
    (whole : system.isCleared = false) :
    (request.addr, request.noncedVerificationData.nonce) ∉
      (system.shared.live ++ system.shared.chain.charged).map BatchQueueEntry.key := by
  obtain ⟨state, known, admits⟩ := enqueue_admits users.owned running current
  intro repeated
  obtain ⟨entry, member, key⟩ := List.mem_map.mp repeated
  have sender : entry.sender = request.addr := congrArg Prod.fst key
  have nonce : entry.nonce = state.nonce := (congrArg Prod.snd key).trans admits.nonce.symm
  rcases List.mem_append.mp member with live | charged
  · have own := mem_account_live whole live
    rw [sender] at own
    have less := ((users.ordered request.addr).continues state known).above entry own
    omega
  · obtain ⟨base, numbered⟩ := users.numbered request.addr
    have behind := numbered.charged entry charged sender
    have onChain := numbered.onChain
    have next := numbered.numbered.next state known
    have mined : (ofSender request.addr system.shared.mined).length ≤
        (system.account request.addr).live.length := by
      rw [Account.live, NumberedUsers.inFlight_account whole, ← Shared.mined_append_unmined,
        ofSender, ofSender, List.filter_append, List.length_append, List.length_append]
      omega
    omega

/-- What a handler accepts carries the sender and the nonce of its request. -/
theorem Change.accepted_key {task : TaskId} {layout : QueueLayout} {after : Shared}
    {entry : BatchQueueEntry}
    (change : Change environment config system (.enqueue task layout) after)
    (accepted : after.accepted = system.shared.accepted ++ [entry]) :
    ∃ request ref balance, system.handlers task = some (request, .enqueue ref balance) ∧
      entry.key = (request.addr, request.noncedVerificationData.nonce) := by
  cases change with
  | @enqueue task layout request ref balance running room =>
      have same := List.append_cancel_left accepted
      cases same
      exact ⟨request, ref, balance, running, rfl⟩
  | @evict task layout request ref evictedRef balance target evicted running full found removed =>
      obtain ⟨userStates, cells, rfl⟩ := Shared.evict_eq_ok removed
      have same := List.append_cancel_left accepted
      cases same
      exact ⟨request, ref, balance, running, rfl⟩
  | evictPanics running full found removed =>
      obtain ⟨userStates, cells, rfl⟩ := Shared.evict_eq_error removed
      cases List.self_eq_append_right.mp accepted
  | flushAndReset labelled flushing => cases labelled
  | _ => cases List.self_eq_append_right.mp accepted

theorem numberedUsers_initial {chain : Chain} (fresh : chain.Fresh)
    (disabledVerifiers lastUploadedBatchBlock : Nat) :
    NumberedUsers (initialSystem config chain disabledVerifiers lastUploadedBatchBlock) := by
  obtain ⟨userStates, cells, nextRef, equation⟩ := Shared.initial_eq config chain
  refine ⟨orderedUsers_initial _ _ _ _, submitted_initial fresh, ?_, fun address => ?_, ?_⟩
  · intro batch stage current
    simp only [initialSystem, equation] at current
    cases current
  · obtain ⟨state, empty, created⟩ := account_initial config chain disabledVerifiers
      lastUploadedBatchBlock address
    refine ⟨chain.userNonce address, ?_, ?_, ?_⟩
    · simp only [initialSystem, equation]
      rfl
    · rw [empty]
      apply Account.Numbered.of_empty
      · rfl
      · intro known member
        rw [created known member]
        rfl
    · intro entry charged
      simp only [initialSystem, equation] at charged
      rw [Shared.empty, Chain.charged, fresh.included] at charged
      cases charged
  · intro isCleared
    cases isCleared

end Run

/-- In every run whose steps meet the condition, the nonce of every user is
that of the chain counted on over its waiting entries, and no sender and nonce
are accepted while an entry with them is queued, in flight or charged. -/
theorem next_nonce_exact (environment : Environment) (config : Config) (chain : Chain)
    (fresh : chain.Fresh) (disabledVerifiers lastUploadedBatchBlock : Nat) (labels : List Label)
    (finish : System)
    (meets : (batcher environment config).Meets (KeepsNonces config)
      (initialSystem config chain disabledVerifiers lastUploadedBatchBlock) labels)
    (ran : (batcher environment config).run
      (initialSystem config chain disabledVerifiers lastUploadedBatchBlock) labels = some finish) :
    (∀ address ref, finish.shared.userStates address = some ref →
      (finish.shared.cells ref).nonce = finish.shared.chain.userNonce address +
        (ofSender address finish.shared.unmined).length +
        (finish.shared.batchQueue.entriesOf address).length) ∧
    ∀ task layout next entry, KeepsNonces config finish (.enqueue task layout) →
      (batcher environment config).step finish (.enqueue task layout) = some next →
      next.shared.accepted = finish.shared.accepted ++ [entry] →
      entry.key ∉ (finish.shared.live ++ finish.shared.chain.charged).map BatchQueueEntry.key := by
  have users : NumberedUsers finish :=
    Machine.run_preserves numberedUsers_step (numberedUsers_initial fresh _ _) meets ran
  refine ⟨fun address ref present => users.exact present, ?_⟩
  intro task layout next entry guarded stepped accepted
  obtain ⟨request, ref, balance, running, key⟩ := (step_change stepped).accepted_key accepted
  rw [key]
  exact users.fresh running (System.When.running guarded.1.1 running rfl)
    (isCleared_of_enqueue running stepped)

/-- One proof of a user is mined, one is in flight, and one is about to be
added. -/
def Sample.thirdProof : List Label :=
  firstProof 0 1 0 1000000 ++ sendBatch ++ closeBatch 0 [1] ++ nextProof 1 1 1 1000000 ++
    [.extract layout 1 2] ++ findUser 2 1 2 1000000 ++
    [.readBalance 2 true, .verifyProof 2 fun _ => true]

theorem next_nonce_exact_thirdProof :
    ∃ finish next entry, (batcher Sample.environment (Sample.config 10)).run
        (Sample.system 10 100000000) Sample.thirdProof = some finish ∧
      (∀ address ref, finish.shared.userStates address = some ref →
        (finish.shared.cells ref).nonce = finish.shared.chain.userNonce address +
          (ofSender address finish.shared.unmined).length +
          (finish.shared.batchQueue.entriesOf address).length) ∧
      (batcher Sample.environment (Sample.config 10)).step finish (.enqueue 2 Sample.layout) =
        some next ∧
      next.shared.accepted = finish.shared.accepted ++ [entry] ∧
      entry.key ∉ (finish.shared.live ++ finish.shared.chain.charged).map
        BatchQueueEntry.key := by
  have found : ((batcher Sample.environment (Sample.config 10)).run
      (Sample.system 10 100000000) Sample.thirdProof).any (fun finish =>
        decide (KeepsNonces (Sample.config 10) finish (.enqueue 2 Sample.layout)) &&
        ((batcher Sample.environment (Sample.config 10)).step finish
          (.enqueue 2 Sample.layout)).any (fun next => next.shared.accepted.getLast?.any
            fun entry => decide (next.shared.accepted = finish.shared.accepted ++ [entry]))) =
      true := by
    decide +kernel
  obtain ⟨finish, ran, facts⟩ := (Option.any_eq_true _ _).mp found
  rw [Bool.and_eq_true] at facts
  obtain ⟨guarded, steps⟩ := facts
  obtain ⟨next, stepped, last⟩ := (Option.any_eq_true _ _).mp steps
  obtain ⟨entry, -, accepted⟩ := (Option.any_eq_true _ _).mp last
  obtain ⟨exact, fresh⟩ := next_nonce_exact Sample.environment (Sample.config 10) _ ⟨rfl, rfl⟩ _ _
    _ _ (by decide +kernel) ran
  have accepts := of_decide_eq_true accepted
  exact ⟨finish, next, entry, ran, exact, stepped, accepts,
    fresh 2 Sample.layout next entry (of_decide_eq_true guarded) stepped accepts⟩

/-- After a flush the nonce of an entry in flight is accepted again. -/
theorem accepted_again_in_flight :
    ∃ finish next entry ref, (batcher Sample.environment (Sample.config 10)).run
        (Sample.system 10 200000) Sample.flushedInFlight = some finish ∧
      (batcher Sample.environment (Sample.config 10)).step finish (.enqueue 1 Sample.layout) =
        some next ∧
      next.shared.accepted = finish.shared.accepted ++ [entry] ∧
      (∃ flying ∈ finish.shared.inFlight, flying.key = entry.key) ∧
      next.shared.userStates entry.sender = some ref ∧
      (next.shared.cells ref).nonce ≠ next.shared.chain.userNonce entry.sender +
        (ofSender entry.sender next.shared.unmined).length +
        (next.shared.batchQueue.entriesOf entry.sender).length := by
  have found : ((batcher Sample.environment (Sample.config 10)).run
      (Sample.system 10 200000) Sample.flushedInFlight).any (fun finish =>
        ((batcher Sample.environment (Sample.config 10)).step finish
          (.enqueue 1 Sample.layout)).any fun next => next.shared.accepted.getLast?.any
            fun entry => (next.shared.userStates entry.sender).any fun ref => decide
              (next.shared.accepted = finish.shared.accepted ++ [entry] ∧
                (∃ flying ∈ finish.shared.inFlight, flying.key = entry.key) ∧
                (next.shared.cells ref).nonce ≠ next.shared.chain.userNonce entry.sender +
                  (ofSender entry.sender next.shared.unmined).length +
                  (next.shared.batchQueue.entriesOf entry.sender).length)) = true := by
    decide +kernel
  obtain ⟨finish, ran, steps⟩ := (Option.any_eq_true _ _).mp found
  obtain ⟨next, stepped, last⟩ := (Option.any_eq_true _ _).mp steps
  obtain ⟨entry, -, users⟩ := (Option.any_eq_true _ _).mp last
  obtain ⟨ref, present, facts⟩ := (Option.any_eq_true _ _).mp users
  obtain ⟨accepted, repeated, differs⟩ := of_decide_eq_true facts
  exact ⟨finish, next, entry, ref, ran, stepped, accepted, repeated, present, differs⟩

end AlignedLayer
