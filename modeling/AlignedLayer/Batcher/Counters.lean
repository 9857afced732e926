import AlignedLayer.Batcher.Accounts
import AlignedLayer.Batcher.Admission

/-!
# The counters of a user

The counters of a user are those of its entries, in flight or queued, and
become those of the queue when they are recomputed after a batch.
-/

namespace AlignedLayer

/-! ## Counters and entries -/

namespace UserState

variable {state : UserState} {entries moved others : List BatchQueueEntry}
  {entry : BatchQueueEntry}

/-- Every one of the entries can be subtracted. -/
structure Affords (state : UserState) (entries : List BatchQueueEntry) : Prop where
  nonce : entries.length ≤ state.nonce
  proofs : entries.length ≤ state.proofsInBatch
  total : totalFee entries ≤ state.totalFeesInQueue

/-- The entries are what was added. -/
structure Sums (state : UserState) (entries : List BatchQueueEntry) : Prop where
  proofs : state.proofsInBatch = entries.length
  total : state.totalFeesInQueue = totalFee entries

theorem Affords.perm (affords : state.Affords entries) (permutation : moved.Perm entries) :
    state.Affords moved where
  nonce := permutation.length_eq ▸ affords.nonce
  proofs := permutation.length_eq ▸ affords.proofs
  total := totalFee_perm permutation ▸ affords.total

theorem Affords.of_append (affords : state.Affords (others ++ entries)) :
    state.Affords entries where
  nonce := by
    have all := affords.nonce
    rw [List.length_append] at all
    omega
  proofs := by
    have all := affords.proofs
    rw [List.length_append] at all
    omega
  total := by
    have all := affords.total
    rw [totalFee_append] at all
    omega

theorem Affords.coversEviction (affords : state.Affords (entry :: entries)) :
    state.coversEviction entry.maxFee := by
  have proofs := affords.proofs
  have nonce := affords.nonce
  have total := affords.total
  rw [List.length_cons] at proofs nonce
  rw [totalFee_cons] at total
  exact ⟨by omega, by omega, by omega⟩

theorem Affords.addEntry (affords : state.Affords entries) (next : state.nonce = entry.nonce) :
    (state.addEntry entry.nonce entry.maxFee).Affords (entry :: entries) where
  nonce := next ▸ Nat.succ_le_succ affords.nonce
  proofs := Nat.succ_le_succ affords.proofs
  total := by
    have before := affords.total
    rw [totalFee_cons, UserState.addEntry]
    dsimp only
    omega

theorem Sums.perm (sums : state.Sums entries) (permutation : moved.Perm entries) :
    state.Sums moved where
  proofs := sums.proofs.trans permutation.length_eq.symm
  total := sums.total.trans (totalFee_perm permutation).symm

theorem Sums.addEntry (sums : state.Sums entries) :
    (state.addEntry entry.nonce entry.maxFee).Sums (entry :: entries) where
  proofs := congrArg (· + 1) sums.proofs
  total := by
    rw [totalFee_cons, Nat.add_comm, ← sums.total]
    rfl

end UserState

namespace Account

section Evict

variable {state : UserState} {entries : List BatchQueueEntry} {entry last : BatchQueueEntry}

theorem evictedState_of_affords (affords : state.Affords (entry :: entries)) :
    evictedState state entry last =
      { nonce := state.nonce - 1
        lastMaxFeeLimit := last.maxFee
        totalFeesInQueue := state.totalFeesInQueue - entry.maxFee
        proofsInBatch := state.proofsInBatch - 1 } := by
  rw [evictedState, UserState.evictEntry_of_covers affords.coversEviction]

theorem evictedState_affords (affords : state.Affords (entry :: entries)) :
    (evictedState state entry last).Affords entries := by
  have nonce := affords.nonce
  have proofs := affords.proofs
  have total := affords.total
  rw [List.length_cons] at nonce proofs
  rw [totalFee_cons] at total
  rw [evictedState_of_affords affords]
  exact ⟨by dsimp only; omega, by dsimp only; omega, by dsimp only; omega⟩

theorem evictedState_sums (affords : state.Affords (entry :: entries))
    (sums : state.Sums (entry :: entries)) : (evictedState state entry last).Sums entries := by
  rw [evictedState_of_affords affords]
  constructor
  · exact congrArg (· - 1) sums.proofs
  · have total := sums.total
    rw [totalFee_cons] at total
    dsimp only
    omega

end Evict

section Replace

variable {state : UserState} {original replacement : BatchQueueEntry}
  {entries : List BatchQueueEntry} {limit : Nat}

theorem affords_replaceEntry (affords : state.Affords (original :: entries))
    (bumped : original.maxFee ≤ replacement.maxFee) :
    (state.replaceEntry limit (replacement.maxFee - original.maxFee)).Affords
      (replacement :: entries) where
  nonce := affords.nonce
  proofs := affords.proofs
  total := by
    have total := affords.total
    rw [totalFee_cons] at total
    rw [totalFee_cons, UserState.replaceEntry]
    dsimp only
    omega

theorem sums_replaceEntry (sums : state.Sums (original :: entries))
    (bumped : original.maxFee ≤ replacement.maxFee) :
    (state.replaceEntry limit (replacement.maxFee - original.maxFee)).Sums
      (replacement :: entries) where
  proofs := sums.proofs
  total := by
    have total := sums.total
    rw [totalFee_cons] at total
    rw [totalFee_cons, UserState.replaceEntry]
    dsimp only
    omega

end Replace

/-! ## One account -/

/-- The counters are those of the entries, unless they are about to be
recomputed, and the limit is that of the queued ones while none is in flight. -/
structure Counted (account : Account) : Prop where
  affords : ∀ state ∈ account.state, state.Affords account.live
  sums : account.outdated = false → ∀ state ∈ account.state, state.Sums account.live
  limited : account.outdated = false → account.inFlight = [] → ∀ state ∈ account.state,
    state.lastMaxFeeLimit = lowestFee account.queued
  known : account.queued ≠ [] → account.state ≠ none

/-- The entry that gives way leaves entries that offer one fee, unless the
limit is about to be recomputed, and entries come back to a known user. -/
def counting (account : Account) : Conditions where
  creatable _ := True
  evictable entry := account.outdated = false → account.inFlight = [] →
    ∀ other ∈ account.queued, other.nonce ≠ entry.nonce →
      ∀ another ∈ account.queued, another.nonce ≠ entry.nonce → other.maxFee ≤ another.maxFee
  replacement _ := True
  settles := True
  restorable := account.inFlight ≠ [] → account.state ≠ none

theorem Counted.step {account next : Account} (counted : account.Counted)
    (step : Step account.counting account next) : next.Counted := by
  cases step with
  | keep moved =>
      have live := moved.append_left account.inFlight
      constructor
      · exact fun state known => (counted.affords state known).perm live
      · exact fun current state known => (counted.sums current state known).perm live
      · intro current settled state known
        rw [lowestFee_perm moved]
        exact counted.limited current settled state known
      · intro nonempty
        apply counted.known
        rintro empty
        rw [empty] at moved
        exact nonempty moved.eq_nil
  | @create nonce nothing granted =>
      obtain ⟨settled, empty⟩ := List.append_eq_nil_iff.mp nothing
      constructor
      · rintro - ⟨⟩
        simp only [live, settled, empty]
        exact ⟨Nat.zero_le _, Nat.zero_le _, Nat.zero_le _⟩
      · rintro - - ⟨⟩
        simp only [live, settled, empty]
        exact ⟨rfl, rfl⟩
      · rintro - - - ⟨⟩
        simp only [empty]
        rfl
      · exact fun _ => by simp
  | @accept state entry queued known stored fresh next limited =>
      have live : (account.inFlight ++ queued).Perm (entry :: account.live) :=
        (stored.append_left _).trans List.perm_middle
      constructor
      · rintro - ⟨⟩
        exact ((counted.affords state known).addEntry next).perm live
      · rintro current - ⟨⟩
        exact (counted.sums current state known).addEntry.perm live
      · rintro current settled - ⟨⟩
        rw [lowestFee_perm stored, lowestFee_cons_of_le]
        · rfl
        · exact counted.limited current settled state known ▸ limited
      · exact fun _ => by simp
  | @evict state entry last queued known removed others left granted =>
      have affords := (counted.affords state known).perm (live_perm_of_cons removed).symm
      constructor
      · rintro - ⟨⟩
        exact evictedState_affords affords
      · rintro current - ⟨⟩
        exact evictedState_sums affords
          ((counted.sums current state known).perm (live_perm_of_cons removed).symm)
      · rintro current settled - ⟨⟩
        rw [evictedState_of_affords affords]
        refine (lowestFee_eq_of_lowest left fun other member => ?_).symm
        have queuedBefore : ∀ other ∈ queued, other ∈ account.queued := fun other member =>
          removed.mem_iff.mpr (List.mem_cons_of_mem _ member)
        exact granted current settled last (queuedBefore last left) (others last left) other
          (queuedBefore other member) (others other member)
      · exact fun _ => by simp
  | evictOnly known only granted =>
      constructor
      · rintro - ⟨⟩
      · rintro - - ⟨⟩
      · rintro - - - ⟨⟩
      · exact fun nonempty => absurd rfl nonempty
  | @replace state original replacement others queued known before after nonce bumped valid
      granted =>
      have stored : (account.inFlight ++ queued).Perm
          (replacement :: (account.inFlight ++ others)) :=
        (after.append_left _).trans List.perm_middle
      have moved := (live_perm_of_cons before).symm
      constructor
      · rintro - ⟨⟩
        exact (affords_replaceEntry ((counted.affords state known).perm moved) bumped).perm stored
      · rintro current - ⟨⟩
        exact (sums_replaceEntry ((counted.sums current state known).perm moved) bumped).perm stored
      · rintro - - - ⟨⟩
        rfl
      · exact fun _ => by simp
  | @take taken queued idle moved ahead =>
      have live : (taken ++ queued).Perm account.live := live_of_settled idle ▸ moved.symm
      constructor
      · exact fun state known => (counted.affords state known).perm live
      · exact fun current state known => (counted.sums current state known).perm live
      · rintro current rfl state known
        exact (counted.limited current idle state known).trans (lowestFee_perm moved)
      · intro nonempty
        apply counted.known
        intro empty
        rw [empty] at moved
        exact nonempty (List.append_eq_nil_iff.mp moved.nil_eq.symm).2
  | @settle outdated users waits granted =>
      have settled : outdated = false → account.inFlight = [] := by
        intro current
        by_contra flying
        rw [users flying] at current
        cases current
      have earlier : outdated = false → account.outdated = false := by
        intro current
        cases before : account.outdated with
        | false => rfl
        | true =>
            rw [waits before] at current
            cases current
      constructor
      · exact fun state known => (counted.affords state known).of_append
      · intro current state known
        have sums := counted.sums (earlier current) state known
        rw [live_of_settled (settled current)] at sums
        exact sums
      · intro current _ state known
        exact counted.limited (earlier current) (settled current) state known
      · exact counted.known
  | @recompute outdated settled =>
      have live : account.inFlight ++ account.queued = account.queued := live_of_settled settled
      constructor
      · intro state known
        obtain ⟨earlier, earlierKnown, rfl⟩ := Option.mem_map.mp known
        have nonce := (counted.affords earlier earlierKnown).nonce
        simp only [Account.live, live] at nonce ⊢
        exact ⟨nonce, Nat.le_refl _, Nat.le_refl _⟩
      · intro _ state known
        obtain ⟨earlier, -, rfl⟩ := Option.mem_map.mp known
        simp only [Account.live, live]
        exact ⟨rfl, rfl⟩
      · intro _ _ state known
        obtain ⟨earlier, -, rfl⟩ := Option.mem_map.mp known
        rfl
      · intro nonempty
        simpa using counted.known nonempty
  | unlimit nothing =>
      obtain ⟨settled, empty⟩ := List.append_eq_nil_iff.mp nothing
      constructor
      · intro state known
        obtain ⟨earlier, earlierKnown, rfl⟩ := Option.mem_map.mp known
        have affords := counted.affords earlier earlierKnown
        exact ⟨affords.nonce, affords.proofs, affords.total⟩
      · intro current state known
        obtain ⟨earlier, earlierKnown, rfl⟩ := Option.mem_map.mp known
        have sums := counted.sums current earlier earlierKnown
        exact ⟨sums.proofs, sums.total⟩
      · intro _ _ state known
        obtain ⟨earlier, -, rfl⟩ := Option.mem_map.mp known
        simp only [empty]
        rfl
      · intro nonempty
        exact absurd empty nonempty
  | @restore queued outdated stored users current granted =>
      have settled : outdated = false → account.inFlight = [] := by
        intro updated
        by_contra flying
        rw [users flying] at updated
        cases updated
      constructor
      · exact fun state known => (counted.affords state known).perm stored
      · exact fun _ state known => (counted.sums current state known).perm stored
      · intro updated _ state known
        have none := settled updated
        rw [none, List.nil_append] at stored
        rw [lowestFee_perm stored]
        exact counted.limited current none state known
      · intro nonempty
        by_cases flying : account.inFlight = []
        · apply counted.known
          intro empty
          rw [flying, empty] at stored
          exact nonempty stored.eq_nil
        · exact granted flying
  | forget subset =>
      constructor
      · rintro - ⟨⟩
      · rintro - - ⟨⟩
      · rintro - - - ⟨⟩
      · exact fun nonempty => absurd rfl nonempty

end Account

/-! ## Every run -/

/-- After the entry has given way, the limit of its user will be that of its
other entries, in whatever order they are queued. -/
def Shared.KeepsLimit (shared : Shared) (entry : BatchQueueEntry) : Prop :=
  shared.isOutdated entry.sender = true ∨
    (∃ flying ∈ shared.inFlight, flying.sender = entry.sender) ∨
    ∀ other ∈ shared.batchQueue.items, other.sender = entry.sender → other.nonce ≠ entry.nonce →
      ∀ another ∈ shared.batchQueue.items, another.sender = entry.sender →
        another.nonce ≠ entry.nonce → other.maxFee ≤ another.maxFee

instance (shared : Shared) (entry : BatchQueueEntry) : Decidable (shared.KeepsLimit entry) :=
  inferInstanceAs (Decidable (_ ∨ _ ∨ _))

/-- The condition on a step under which the counters of every user stay those
of its entries. -/
def KeepsCounters (config : Config) (system : System) (label : Label) : Prop :=
  KeepsAccounts config system label ∧
    match label with
    | .enqueue task _ => system.When Phase.enqueuing (fun request _ =>
        BatchState.isQueueFull config.maxQueueSize system.shared.batchQueue = true →
          system.ForAllOutbid request system.shared.KeepsLimit) task
    | .restore _ => system.shared.OfBatch fun batch =>
        ∀ entry ∈ batch.entries, system.shared.userStates entry.sender ≠ none
    | _ => True

instance (config : Config) (system : System) (label : Label) :
    Decidable (KeepsCounters config system label) := by
  apply @Label.casesOn (fun label => Decidable (KeepsCounters config system label)) label
  all_goals intros
  all_goals dsimp only [KeepsCounters]
  all_goals infer_instance

section Run

variable {environment : Environment} {config : Config} {system next : System} {label : Label}

structure CountedUsers (system : System) : Prop extends KeepsBooks system where
  counted : ∀ address, (system.account address).Counted

theorem CountedUsers.grants (guarded : KeepsCounters config system label)
    (stepped : (batcher environment config).step system label = some next) (address : Address) :
    system.Grants environment config label address (system.account address).counting where
  creatable _ _ := trivial
  evictable entry evicts sender := by
    cases evicts with
    | enqueue running full queued outbid present free =>
        have whole := isCleared_of_enqueue running stepped
        subst sender
        intro current settled other member different another anotherMember anotherDiffers
        obtain ⟨stored, same⟩ := mem_entriesOf.mp member
        obtain ⟨anotherStored, anotherSame⟩ := mem_entriesOf.mp anotherMember
        rcases System.When.running guarded.2 running rfl full entry queued outbid _ present free
          with outdated | ⟨flying, inFlight, own⟩ | lowest
        · rw [System.account, Shared.account, outdated] at current
          cases current
        · have member := mem_account_inFlight_of_whole whole inFlight
          rw [own] at member
          exact absurd settled (List.ne_nil_of_mem member)
        · exact lowest other stored same different another anotherStored anotherSame anotherDiffers
  replacement _ _ _ := trivial
  settles _ := trivial
  restorable layout batch labelled current := by
    subst labelled
    intro flying
    obtain ⟨entry, member⟩ := List.exists_mem_of_ne_nil _ flying
    obtain ⟨inFlight, sender⟩ := mem_account_inFlight member
    rw [Shared.inFlight_of_open current rfl] at inFlight
    subst sender
    have present := Shared.OfBatch.current guarded.2 current entry inFlight
    simpa [System.account, Shared.account, Shared.stateOf] using present

theorem countedUsers_step (users : CountedUsers system)
    (guarded : KeepsCounters config system label)
    (stepped : (batcher environment config).step system label = some next) :
    CountedUsers next := by
  refine ⟨keepsBooks_step users.toKeepsBooks guarded.1 stepped, fun address => ?_⟩
  exact (users.counted address).step (step_account users.owned users.keyed users.waits guarded.1
    (CountedUsers.grants guarded stepped address) stepped)

theorem CountedUsers.agree (users : CountedUsers system) (idle : system.shared.batch = none) :
    (∀ address ref, system.shared.userStates address = some ref →
      (system.shared.cells ref).Counts system.shared.batchQueue address) ∧
    ∀ entry ∈ system.shared.batchQueue.items, system.shared.userStates entry.sender ≠ none := by
  have settled : ∀ address, (system.account address).inFlight = [] := by
    intro address
    rw [System.account, Shared.account, Shared.inFlight_of_none idle, List.filter_nil, ite_self]
  constructor
  · intro address ref present
    have counted := users.counted address
    have current : (system.account address).outdated = false := by
      rw [System.account, Shared.account, Shared.isOutdated, idle]
    have known : system.shared.cells ref ∈ (system.account address).state := by
      rw [System.account, Shared.account, Shared.stateOf, present]
      rfl
    have sums := counted.sums current _ known
    rw [Account.live_of_settled (settled address)] at sums
    exact ⟨sums.proofs, sums.total, counted.limited current (settled address) _ known⟩
  · intro entry queued absent
    apply (users.counted entry.sender).known
    · exact List.ne_nil_of_mem (mem_entriesOf.mpr ⟨queued, rfl⟩)
    · rw [System.account, Shared.account, Shared.stateOf, absent]
      rfl

theorem CountedUsers.coversEviction (users : CountedUsers system) {entry : BatchQueueEntry}
    {ref : Ref} (queued : entry ∈ system.shared.batchQueue.items)
    (present : system.shared.userStates entry.sender = some ref) :
    (system.shared.cells ref).coversEviction entry.maxFee := by
  have known : system.shared.cells ref ∈ (system.account entry.sender).state := by
    rw [System.account, Shared.account, Shared.stateOf, present]
    rfl
  have live : entry ∈ (system.account entry.sender).live :=
    List.mem_append_right _ (mem_entriesOf.mpr ⟨queued, rfl⟩)
  have affords := (users.counted entry.sender).affords _ known
  exact (affords.perm (List.perm_cons_erase live).symm).coversEviction

end Run

/-- In every run whose steps meet the condition, the counters agree with the
queue whenever no batch is in flight, and no eviction subtracts too much. -/
theorem counters_agree_with_queue (environment : Environment) (config : Config) (chain : Chain)
    (disabledVerifiers lastUploadedBatchBlock : Nat) (labels : List Label) (finish : System)
    (meets : (batcher environment config).Meets (KeepsCounters config)
      (initialSystem config chain disabledVerifiers lastUploadedBatchBlock) labels)
    (ran : (batcher environment config).run
      (initialSystem config chain disabledVerifiers lastUploadedBatchBlock) labels = some finish) :
    (finish.shared.batch = none →
      (∀ address ref, finish.shared.userStates address = some ref →
        (finish.shared.cells ref).Counts finish.shared.batchQueue address) ∧
      ∀ entry ∈ finish.shared.batchQueue.items, finish.shared.userStates entry.sender ≠ none) ∧
    ∀ entry ∈ finish.shared.batchQueue.items, ∀ ref,
      finish.shared.userStates entry.sender = some ref →
        (finish.shared.cells ref).coversEviction entry.maxFee := by
  have users : CountedUsers finish := by
    refine Machine.run_preserves countedUsers_step ⟨keepsBooks_initial _ _ _ _, ?_⟩ meets ran
    intro address
    obtain ⟨state, empty, created⟩ := account_initial config chain disabledVerifiers
      lastUploadedBatchBlock address
    rw [empty]
    refine ⟨?_, ?_, ?_, fun nonempty => absurd rfl nonempty⟩
    · exact fun _ _ => ⟨Nat.zero_le _, Nat.zero_le _, Nat.zero_le _⟩
    · intro _ known member
      rw [created known member]
      exact ⟨rfl, rfl⟩
    · intro _ _ known member
      rw [created known member]
      rfl
  exact ⟨users.agree, fun entry queued ref present => users.coversEviction queued present⟩

namespace Sample

/-- A proof of user 1 gives way, one batch is mined, the next one fails, and
user 1 goes on. -/
def countersKept : List Label :=
  firstProof 0 1 0 3000000 ++ nextProof 1 1 1 1000000 ++ firstProof 2 2 0 2000000 ++
    sendBatch ++ closeBatch 0 [1, 2] ++ nextProof 3 1 1 500000 ++
    [.extract layout 1 2, .failSubmission, .restore layout, .updateUser layout 1, .endUpdates]

/-- User 1 has three queued proofs; the last one gives way while the first one
is the last in the order of the queue. -/
def limitRaised : List Label :=
  firstProof 0 1 0 3000000 ++ nextProof 1 1 1 2000000 ++ nextProof 2 1 2 1000000 ++
    createUser 3 2 0 1500000 ++ [.readBalance 3 true, .verifyProof 3 fun _ => true,
      .enqueue 3 (Layout.first fun stored => stored.1.nonce = 1)]

end Sample

theorem counters_agree_with_queue_countersKept :
    ∃ finish, (batcher Sample.environment (Sample.config 2)).run
        (Sample.system 2 100000000) Sample.countersKept = some finish ∧
      finish.shared.batch = none ∧
      ∀ address ref, finish.shared.userStates address = some ref →
        (finish.shared.cells ref).Counts finish.shared.batchQueue address := by
  have found : ((batcher Sample.environment (Sample.config 2)).run
      (Sample.system 2 100000000) Sample.countersKept).any (fun finish =>
        finish.shared.batch.isNone) = true := by
    decide +kernel
  obtain ⟨finish, ran, idle⟩ := (Option.any_eq_true _ _).mp found
  have none := Option.isNone_iff_eq_none.mp idle
  refine ⟨finish, ran, none, ?_⟩
  exact ((counters_agree_with_queue Sample.environment (Sample.config 2) _ _ _ _ _
    (by decide +kernel) ran).1 none).1

/-- No batch is in flight, and the limit of user 1 is above its lowest fee. -/
theorem evicted_user_limit_raised :
    ∃ finish ref, (batcher Sample.environment (Sample.config 3)).run
        (Sample.system 3 100000000) Sample.limitRaised = some finish ∧
      (∀ task ∈ [0, 1, 2, 3], finish.handlers task = none) ∧
      finish.shared.batch = none ∧ finish.shared.userStates 1 = some ref ∧
      ¬ (finish.shared.cells ref).Counts finish.shared.batchQueue 1 := by
  have found : ((batcher Sample.environment (Sample.config 3)).run
      (Sample.system 3 100000000) Sample.limitRaised).any (fun finish =>
        ([0, 1, 2, 3].all fun task => (finish.handlers task).isNone) &&
        finish.shared.batch.isNone && (finish.shared.userStates 1).any fun ref =>
          decide ((finish.shared.cells ref).lastMaxFeeLimit = 3000000 ∧
            BatchState.getUserMinFeeInBatch finish.shared.batchQueue 1 = 2000000)) = true := by
    decide +kernel
  obtain ⟨finish, ran, facts⟩ := (Option.any_eq_true _ _).mp found
  rw [Bool.and_eq_true, Bool.and_eq_true] at facts
  obtain ⟨⟨done, idle⟩, users⟩ := facts
  obtain ⟨ref, present, limits⟩ := (Option.any_eq_true _ _).mp users
  obtain ⟨raised, lowest⟩ := of_decide_eq_true limits
  refine ⟨finish, ref, ran, fun task member => ?_, Option.isNone_iff_eq_none.mp idle, present, ?_⟩
  · exact Option.isNone_iff_eq_none.mp (List.all_eq_true.mp done task member)
  · intro counts
    have limit := counts.lastMaxFeeLimit
    rw [raised, lowest] at limit
    omega

end AlignedLayer
