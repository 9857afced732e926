import AlignedLayer.Batcher.Accounts
import AlignedLayer.Batcher.Admission
import AlignedLayer.Batcher.Replacements

/-!
# The order of a user's nonces

The entries of a user, in flight or queued, have consecutive nonces and fees
that do not increase with them, and the cached state goes on where they end.
-/

namespace AlignedLayer

/-! ## Lists in the order of the nonces -/

section Lists

variable {entries lower : List BatchQueueEntry} {entry : BatchQueueEntry}

theorem InNonceOrder.nil : InNonceOrder [] where
  contiguous low lowMember := by cases lowMember
  fees low lowMember := by cases lowMember

/-- What is below the entries that leave stays in the order of the nonces. -/
theorem InNonceOrder.of_lower (ordered : InNonceOrder entries)
    (subset : ∀ other ∈ lower, other ∈ entries)
    (closed : ∀ high ∈ lower, ∀ other ∈ entries, other.nonce ≤ high.nonce → other ∈ lower) :
    InNonceOrder lower where
  contiguous low lowMember high highMember nonce above below := by
    obtain ⟨other, member, same⟩ := ordered.contiguous low (subset low lowMember) high
      (subset high highMember) nonce above below
    refine ⟨other, closed high highMember other member ?_, same⟩
    rwa [same]
  fees low lowMember high highMember :=
    ordered.fees low (subset low lowMember) high (subset high highMember)

/-- The state goes on with the nonce after the last one, and admits no fee
above any of the entries. -/
structure UserState.Continues (state : UserState) (entries : List BatchQueueEntry) : Prop where
  last : entries ≠ [] → ∃ entry ∈ entries, entry.nonce + 1 = state.nonce
  above : ∀ entry ∈ entries, entry.nonce < state.nonce
  limited : ∀ entry ∈ entries, state.lastMaxFeeLimit ≤ entry.maxFee

namespace UserState.Continues

variable {state : UserState}

theorem nil : state.Continues [] where
  last nonempty := absurd rfl nonempty
  above entry member := by cases member
  limited entry member := by cases member

theorem perm {moved : List BatchQueueEntry} (continues : state.Continues entries)
    (permutation : moved.Perm entries) : state.Continues moved where
  last nonempty := by
    obtain ⟨entry, member, same⟩ := continues.last fun empty => by
      rw [empty] at permutation
      exact nonempty permutation.eq_nil
    exact ⟨entry, permutation.mem_iff.mpr member, same⟩
  above entry member := continues.above entry (permutation.mem_iff.mp member)
  limited entry member := continues.limited entry (permutation.mem_iff.mp member)

/-- An admitted entry comes after all others. -/
theorem cons (continues : state.Continues entries) (next : state.nonce = entry.nonce)
    (limited : entry.maxFee ≤ state.lastMaxFeeLimit) :
    (state.addEntry entry.nonce entry.maxFee).Continues (entry :: entries) where
  last _ := ⟨entry, List.mem_cons_self, rfl⟩
  above other member := by
    apply Nat.lt_succ_of_le
    rcases List.mem_cons.mp member with rfl | before
    · exact Nat.le_refl _
    · have earlier := continues.above other before
      omega
  limited other member := by
    rcases List.mem_cons.mp member with rfl | before
    · exact Nat.le_refl _
    · exact limited.trans (continues.limited other before)

end UserState.Continues

theorem InNonceOrder.cons {state : UserState} (ordered : InNonceOrder entries)
    (continues : state.Continues entries) (next : state.nonce = entry.nonce)
    (limited : entry.maxFee ≤ state.lastMaxFeeLimit) : InNonceOrder (entry :: entries) where
  contiguous low lowMember high highMember nonce above below := by
    rcases List.mem_cons.mp highMember with rfl | highBefore
    · rcases Nat.lt_or_eq_of_le below with earlier | same
      · rcases List.mem_cons.mp lowMember with rfl | lowBefore
        · omega
        · obtain ⟨last, lastMember, isLast⟩ := continues.last (List.ne_nil_of_mem lowBefore)
          obtain ⟨found, member, same⟩ := ordered.contiguous low lowBefore last lastMember nonce
            above (by omega)
          exact ⟨found, List.mem_cons_of_mem _ member, same⟩
      · exact ⟨high, List.mem_cons_self, same.symm⟩
    · have highEarlier := continues.above high highBefore
      rcases List.mem_cons.mp lowMember with rfl | lowBefore
      · omega
      · obtain ⟨found, member, same⟩ := ordered.contiguous low lowBefore high highBefore nonce
          above below
        exact ⟨found, List.mem_cons_of_mem _ member, same⟩
  fees low lowMember high highMember less := by
    rcases List.mem_cons.mp lowMember with rfl | lowBefore
    · rcases List.mem_cons.mp highMember with rfl | highBefore
      · omega
      · have highEarlier := continues.above high highBefore
        omega
    · rcases List.mem_cons.mp highMember with rfl | highBefore
      · exact limited.trans (continues.limited low lowBefore)
      · exact ordered.fees low lowBefore high highBefore less

/-- Without its last entry the list ends one nonce earlier. -/
theorem exists_before_last (ordered : InNonceOrder (entry :: entries))
    (highest : ∀ other ∈ entries, other.nonce < entry.nonce) (nonempty : entries ≠ []) :
    ∃ other ∈ entries, other.nonce + 1 = entry.nonce := by
  obtain ⟨low, lowMember⟩ := List.exists_mem_of_ne_nil _ nonempty
  have less := highest low lowMember
  obtain ⟨found, member, same⟩ := ordered.contiguous low (List.mem_cons_of_mem _ lowMember) entry
    List.mem_cons_self (entry.nonce - 1) (by omega) (by omega)
  rcases List.mem_cons.mp member with rfl | other
  · omega
  · exact ⟨found, other, by omega⟩

end Lists

/-! ## One account -/

namespace Account

/-- The entries in flight come first, all of them are in the order of their
nonces, and the state goes on where they end. -/
structure Ordered (account : Account) : Prop where
  distinct : (account.live.map BatchQueueEntry.nonce).Nodup
  below : ∀ low ∈ account.inFlight, ∀ high ∈ account.queued, low.nonce < high.nonce
  ordered : InNonceOrder account.live
  continues : ∀ state ∈ account.state, state.Continues account.live

/-- Only the last entry gives way, and then the others offer one fee; no
replacement offers more than an entry in flight. -/
def orderly (account : Account) : Conditions where
  creatable _ := True
  evictable entry :=
    (∀ other ∈ account.queued, other.nonce ≤ entry.nonce) ∧
      ∀ other ∈ account.queued, other.nonce ≠ entry.nonce →
        ∀ another ∈ account.live, another.nonce ≠ entry.nonce → other.maxFee ≤ another.maxFee
  replacement entry := ∀ flying ∈ account.inFlight, entry.maxFee ≤ flying.maxFee
  settles := True
  restorable := True

namespace Ordered

variable {account : Account} {queued : List BatchQueueEntry} {entry : BatchQueueEntry}

/-- The same entries with another state, or in another place. -/
theorem of_perm {next : Account} (ordered : account.Ordered)
    (permutation : next.live.Perm account.live)
    (below : ∀ low ∈ next.inFlight, ∀ high ∈ next.queued, low.nonce < high.nonce)
    (continues : ∀ state ∈ next.state, state.Continues account.live) : next.Ordered where
  distinct := ((permutation.map BatchQueueEntry.nonce).nodup_iff).mpr ordered.distinct
  below := below
  ordered := ordered.ordered.perm permutation.symm
  continues state known := (continues state known).perm permutation

/-- The queued entries without those in flight. -/
theorem queue (ordered : account.Ordered) : InNonceOrder account.queued := by
  apply ordered.ordered.of_upper
  · exact fun other member => List.mem_append_right _ member
  · intro low lowMember other member above
    rcases List.mem_append.mp member with flying | queued
    · have below := ordered.below other flying low lowMember
      omega
    · exact queued

/-- The state goes on after the queued entries once those in flight are
settled. -/
theorem continues_queue (ordered : account.Ordered) {state : UserState}
    (known : state ∈ account.state) : state.Continues account.queued where
  last nonempty := by
    have continues := ordered.continues state known
    obtain ⟨high, highMember⟩ := List.exists_mem_of_ne_nil _ nonempty
    obtain ⟨last, member, same⟩ :=
      continues.last (List.ne_nil_of_mem (List.mem_append_right _ highMember))
    rcases List.mem_append.mp member with flying | queued
    · have below := ordered.below last flying high highMember
      have above := continues.above high (List.mem_append_right _ highMember)
      omega
    · exact ⟨last, queued, same⟩
  above other member := (ordered.continues state known).above other (List.mem_append_right _ member)
  limited other member :=
    (ordered.continues state known).limited other (List.mem_append_right _ member)

/-- The evicted entry is the last of all. -/
theorem lt_evicted (ordered : account.Ordered) (removed : account.queued.Perm (entry :: queued))
    (highest : ∀ other ∈ account.queued, other.nonce ≤ entry.nonce) :
    ∀ other ∈ account.inFlight ++ queued, other.nonce < entry.nonce := by
  intro other member
  have member' : entry ∈ account.queued := removed.mem_iff.mpr List.mem_cons_self
  rcases List.mem_append.mp member with flying | stays
  · exact ordered.below other flying entry member'
  · have distinct := ((live_perm_of_cons removed).map BatchQueueEntry.nonce).nodup_iff.mp
      ordered.distinct
    rw [List.map_cons, List.nodup_cons] at distinct
    have different : other.nonce ≠ entry.nonce := fun same =>
      distinct.1 (same ▸ List.mem_map_of_mem (List.mem_append_right _ stays))
    have most := highest other (removed.mem_iff.mpr (List.mem_cons_of_mem _ stays))
    omega

theorem evict_lists (ordered : account.Ordered) (removed : account.queued.Perm (entry :: queued))
    (highest : ∀ other ∈ account.queued, other.nonce ≤ entry.nonce) {state : Option UserState}
    (continues : ∀ known ∈ state, known.Continues (account.inFlight ++ queued)) :
    Ordered { account with queued, state } where
  distinct := by
    have distinct := ((live_perm_of_cons removed).map BatchQueueEntry.nonce).nodup_iff.mp
      ordered.distinct
    rw [List.map_cons, List.nodup_cons] at distinct
    exact distinct.2
  below low lowMember high highMember :=
    ordered.below low lowMember high (removed.mem_iff.mpr (List.mem_cons_of_mem _ highMember))
  ordered := by
    have less := ordered.lt_evicted removed highest
    apply (ordered.ordered.perm (live_perm_of_cons removed)).of_lower
    · exact fun other member => List.mem_cons_of_mem _ member
    · intro high highMember other member below
      rcases List.mem_cons.mp member with rfl | stays
      · have above := less high highMember
        omega
      · exact stays
  continues := continues

/-- Whether or not the update of the counters panics. -/
theorem evictedState_continues (ordered : account.Ordered) {state : UserState}
    {last : BatchQueueEntry} (known : state ∈ account.state)
    (removed : account.queued.Perm (entry :: queued)) (left : last ∈ queued)
    (granted : account.orderly.evictable entry) :
    (evictedState state entry last).Continues (account.inFlight ++ queued) := by
  obtain ⟨highest, lowest⟩ := granted
  have moved := live_perm_of_cons removed
  have less := ordered.lt_evicted removed highest
  have continues := (ordered.continues state known).perm moved.symm
  have isLast : entry.nonce + 1 = state.nonce := by
    obtain ⟨found, member, same⟩ := continues.last (List.cons_ne_nil _ _)
    rcases List.mem_cons.mp member with rfl | earlier
    · exact same
    · have before := less found earlier
      have after := continues.above entry List.mem_cons_self
      omega
  have nonce := @evictedState_nonce state entry last (by omega)
  constructor
  · intro nonempty
    obtain ⟨found, member, same⟩ :=
      exists_before_last (ordered.ordered.perm moved) less nonempty
    exact ⟨found, member, by omega⟩
  · intro other member
    have before := less other member
    omega
  · intro other member
    have differs := Nat.ne_of_lt (less other member)
    have lastDiffers := Nat.ne_of_lt (less last (List.mem_append_right _ left))
    have within := lowest last (removed.mem_iff.mpr (List.mem_cons_of_mem _ left)) lastDiffers
      other (moved.mem_iff.mpr (List.mem_cons_of_mem _ member)) differs
    have before := continues.limited other (List.mem_cons_of_mem _ member)
    rw [evictedState]
    split
    · next result =>
        rw [(UserState.evictEntry_eq_ok result).2.2.2.1]
        exact within
    · next result =>
        rw [UserState.evictEntry] at result
        repeat' split at result
        all_goals cases result
        all_goals exact before

theorem step {next : Account} (ordered : account.Ordered)
    (step : account.Step account.orderly next) : next.Ordered := by
  cases step with
  | keep moved =>
      refine ordered.of_perm (moved.append_left _) ?_ ordered.continues
      intro low lowMember high highMember
      exact ordered.below low lowMember high (moved.mem_iff.mp highMember)
  | create nothing granted =>
      refine ordered.of_perm (.refl _) ordered.below ?_
      intro state _
      rw [nothing]
      exact .nil
  | @accept state entry queued known stored fresh next limited =>
      have continues := ordered.continues state known
      have moved : (account.inFlight ++ queued).Perm (entry :: account.live) :=
        (stored.append_left _).trans List.perm_middle
      constructor
      · apply ((moved.map BatchQueueEntry.nonce).nodup_iff).mpr
        rw [List.map_cons, List.nodup_cons]
        refine ⟨?_, ordered.distinct⟩
        intro repeated
        obtain ⟨other, member, same⟩ := List.mem_map.mp repeated
        exact fresh other member same
      · intro low lowMember high highMember
        rcases List.mem_cons.mp (stored.mem_iff.mp highMember) with rfl | before
        · rw [← next]
          exact continues.above low (List.mem_append_left _ lowMember)
        · exact ordered.below low lowMember high before
      · exact (ordered.ordered.cons continues next limited).perm moved.symm
      · rintro - ⟨⟩
        exact (continues.cons next limited).perm moved
  | evict known removed others left granted =>
      refine ordered.evict_lists removed granted.1 ?_
      rintro - ⟨⟩
      exact ordered.evictedState_continues known removed left granted
  | @evictOnly state entry known only granted =>
      refine ordered.evict_lists only granted.1 ?_
      rintro - ⟨⟩
  | @replace state original replacement others queued known before after nonce bumped valid
      granted =>
      have moved := live_perm_of_cons before
      have stored : (account.inFlight ++ queued).Perm
          (replacement :: (account.inFlight ++ others)) :=
        (after.append_left _).trans List.perm_middle
      have continues := (ordered.continues state known).perm moved.symm
      constructor
      · have distinct := (moved.map BatchQueueEntry.nonce).nodup_iff.mp ordered.distinct
        apply ((stored.map BatchQueueEntry.nonce).nodup_iff).mpr
        rw [List.map_cons, nonce]
        exact distinct
      · intro low lowMember high highMember
        rcases List.mem_cons.mp (after.mem_iff.mp highMember) with rfl | other
        · rw [nonce]
          exact ordered.below low lowMember original (before.mem_iff.mpr List.mem_cons_self)
        · exact ordered.below low lowMember high
            (before.mem_iff.mpr (List.mem_cons_of_mem _ other))
      · refine ((ordered.ordered.perm moved).replace nonce bumped ?_).perm stored.symm
        intro other member less
        rcases List.mem_append.mp member with flying | stays
        · exact granted other flying
        · exact valid other stays less
      · rintro - ⟨⟩
        constructor
        · intro _
          obtain ⟨found, member, same⟩ := continues.last (List.cons_ne_nil _ _)
          rcases List.mem_cons.mp member with rfl | earlier
          · exact ⟨replacement, stored.mem_iff.mpr List.mem_cons_self,
              (congrArg (· + 1) nonce).trans same⟩
          · exact ⟨found, stored.mem_iff.mpr (List.mem_cons_of_mem _ earlier), same⟩
        · intro other member
          rcases List.mem_cons.mp (stored.mem_iff.mp member) with rfl | earlier
          · rw [nonce]
            exact continues.above original List.mem_cons_self
          · exact continues.above other (List.mem_cons_of_mem _ earlier)
        · intro other member
          rcases List.mem_append.mp member with flying | stored
          · exact (lowestFee_le (after.mem_iff.mpr List.mem_cons_self)).trans
              (granted other flying)
          · exact lowestFee_le stored
  | @take taken queued idle moved ahead =>
      have live : account.live = account.queued := by rw [live, idle, List.nil_append]
      refine ordered.of_perm (live ▸ moved.symm) ?_ ordered.continues
      intro low lowMember high highMember
      have distinct := (moved.map BatchQueueEntry.nonce).nodup_iff.mp (live ▸ ordered.distinct)
      rw [List.map_append, List.nodup_append] at distinct
      have differ := distinct.2.2 _ (List.mem_map_of_mem lowMember) _
        (List.mem_map_of_mem highMember)
      have order := ahead low lowMember high highMember
      have fees := ordered.queue.fees high
        (moved.mem_iff.mpr (List.mem_append_right _ highMember)) low
        (moved.mem_iff.mpr (List.mem_append_left _ lowMember))
      rw [BatchQueueEntry.priority_le_iff] at order
      omega
  | settle users waits granted =>
      refine ⟨?_, ?_, ordered.queue, fun state known => ordered.continues_queue known⟩
      · exact (List.map_append ▸ ordered.distinct).of_append_right
      · intro low lowMember
        cases lowMember
  | recompute settled =>
      have live : account.live = account.queued := by rw [Account.live, settled, List.nil_append]
      refine ordered.of_perm (.refl _) ordered.below ?_
      intro state known
      obtain ⟨earlier, earlierKnown, rfl⟩ := Option.mem_map.mp known
      have continues := ordered.continues earlier earlierKnown
      exact
        { last := continues.last
          above := continues.above
          limited := fun entry member => lowestFee_le (live ▸ member) }
  | unlimit nothing =>
      refine ordered.of_perm (.refl _) ordered.below ?_
      intro state _
      rw [nothing]
      exact .nil
  | restore stored users current granted =>
      refine ordered.of_perm stored ?_ ordered.continues
      intro low lowMember
      cases lowMember
  | forget subset =>
      rcases subset with rfl | rfl
      · refine ⟨?_, ?_, ?_, ?_⟩
        · rw [live, List.append_nil]
          exact (List.map_append ▸ ordered.distinct).of_append_left
        · intro low _ high highMember
          cases highMember
        · apply ordered.ordered.of_lower
          · intro entry member
            rw [live, List.append_nil] at member
            exact List.mem_append_left _ member
          · intro high highMember other member below
            rw [live, List.append_nil] at highMember ⊢
            rcases List.mem_append.mp member with flying | stays
            · exact flying
            · have above := ordered.below high highMember other stays
              omega
        · rintro - ⟨⟩
      · refine ⟨List.nodup_nil, ?_, .nil, ?_⟩
        · intro low lowMember
          cases lowMember
        · rintro - ⟨⟩

end Ordered

end Account

/-! ## Every run -/

/-- The entry is the last one queued of its user, and the others offer one fee,
not above that of any entry in flight. -/
def Shared.GivesWay (shared : Shared) (entry : BatchQueueEntry) : Prop :=
  (∀ other ∈ shared.batchQueue.items, other.sender = entry.sender →
    other.nonce ≤ entry.nonce) ∧
  ∀ other ∈ shared.batchQueue.items, other.sender = entry.sender → other.nonce ≠ entry.nonce →
    ∀ another ∈ shared.live, another.sender = entry.sender → another.nonce ≠ entry.nonce →
      other.maxFee ≤ another.maxFee

instance (shared : Shared) (entry : BatchQueueEntry) : Decidable (shared.GivesWay entry) :=
  inferInstanceAs (Decidable (_ ∧ _))

/-- The condition on a step under which the entries of every user stay in the
order of their nonces. -/
def KeepsNonceOrder (config : Config) (system : System) (label : Label) : Prop :=
  UsesCurrentUsers config system label ∧
    match label with
    | .enqueue task _ => system.When Phase.enqueuing (fun request _ =>
        BatchState.isQueueFull config.maxQueueSize system.shared.batchQueue = true →
          system.ForAllOutbid request system.shared.GivesWay) task
    | .replace task _ => system.When Phase.replacing (fun request _ =>
        ∀ flying ∈ system.shared.inFlight, flying.sender = request.addr →
          request.noncedVerificationData.maxFee ≤ flying.maxFee) task
    | .restore _ => system.shared.OfBatch fun batch =>
        system.shared.batchQueue.len + batch.entries.length ≤ config.maxQueueSize
    | _ => True

instance (config : Config) (system : System) (label : Label) :
    Decidable (KeepsNonceOrder config system label) := by
  apply @Label.casesOn (fun label => Decidable (KeepsNonceOrder config system label)) label
  all_goals intros
  all_goals dsimp only [KeepsNonceOrder]
  all_goals infer_instance

section Run

variable {environment : Environment} {config : Config} {system next : System} {label : Label}

structure OrderedUsers (system : System) : Prop extends KeepsBooks system where
  ordered : ∀ address, (system.account address).Ordered

theorem OrderedUsers.keepsAccounts (users : OrderedUsers system)
    (guarded : KeepsNonceOrder config system label)
    (stepped : (batcher environment config).step system label = some next) :
    KeepsAccounts config system label := by
  refine ⟨guarded.1, ?_⟩
  cases label with
  | enqueue task layout =>
      refine System.When.of_running fun request phase ref running isAt => ?_
      cases phase with
      | enqueue userStateRef balance =>
          cases isAt
          have current : system.shared.userStates request.addr = some ref :=
            System.When.running guarded.1 running rfl
          obtain ⟨state, known, admits⟩ := enqueue_admits users.owned running current
          intro repeated
          obtain ⟨entry, live, key⟩ := List.mem_map.mp repeated
          have sender : entry.sender = request.addr := congrArg Prod.fst key
          have nonce : entry.nonce = request.noncedVerificationData.nonce := congrArg Prod.snd key
          have member := mem_account_live (isCleared_of_enqueue running stepped) live
          rw [sender] at member
          have before := ((users.ordered request.addr).continues state known).above entry member
          rw [admits.nonce, nonce] at before
          exact absurd before (Nat.lt_irrefl _)
      | _ => cases isAt
  | restore layout => exact guarded.2
  | _ => trivial

theorem OrderedUsers.grants (guarded : KeepsNonceOrder config system label) (address : Address) :
    system.Grants environment config label address (system.account address).orderly where
  creatable _ _ := trivial
  evictable entry evicts sender := by
    cases evicts with
    | enqueue running full queued outbid present free =>
        obtain ⟨highest, lowest⟩ :=
          System.When.running guarded.2 running rfl full entry queued outbid _ present free
        subst sender
        constructor
        · intro other member
          obtain ⟨stored, same⟩ := mem_entriesOf.mp member
          exact highest other stored same
        · intro other member different another anotherMember anotherDiffers
          obtain ⟨stored, same⟩ := mem_entriesOf.mp member
          obtain ⟨live, anotherSame⟩ := mem_live_of_account anotherMember
          exact lowest other stored same different another live anotherSame anotherDiffers
  replacement entry replaces sender := by
    cases replaces with
    | replace running stored =>
        have own : address = _ := sender.symm.trans
          (congrArg Prod.fst (BatchState.getEntry_eq_some stored).2)
        subst own
        intro flying member
        obtain ⟨inFlight, same⟩ := mem_account_inFlight member
        exact System.When.running guarded.2 running rfl flying inFlight same
  settles _ := trivial
  restorable _ _ _ _ := trivial

theorem orderedUsers_step (users : OrderedUsers system)
    (guarded : KeepsNonceOrder config system label)
    (stepped : (batcher environment config).step system label = some next) :
    OrderedUsers next := by
  have keeps := users.keepsAccounts guarded stepped
  refine ⟨keepsBooks_step users.toKeepsBooks keeps stepped, fun address => ?_⟩
  exact (users.ordered address).step (step_account users.owned users.keyed users.waits keeps
    (OrderedUsers.grants guarded address) stepped)

end Run

theorem orderedUsers_initial (config : Config) (chain : Chain)
    (disabledVerifiers lastUploadedBatchBlock : Nat) :
    OrderedUsers (initialSystem config chain disabledVerifiers lastUploadedBatchBlock) := by
  refine ⟨keepsBooks_initial _ _ _ _, fun address => ?_⟩
  obtain ⟨state, empty, -⟩ := account_initial config chain disabledVerifiers
    lastUploadedBatchBlock address
  rw [empty]
  refine ⟨List.nodup_nil, ?_, .nil, fun _ _ => .nil⟩
  intro low lowMember
  cases lowMember

/-- In every run whose steps meet the condition, the queued entries of every
sender have contiguous nonces and fees that do not increase with them. -/
theorem queue_stays_in_nonce_order (environment : Environment) (config : Config) (chain : Chain)
    (disabledVerifiers lastUploadedBatchBlock : Nat) (labels : List Label) (finish : System)
    (meets : (batcher environment config).Meets (KeepsNonceOrder config)
      (initialSystem config chain disabledVerifiers lastUploadedBatchBlock) labels)
    (ran : (batcher environment config).run
      (initialSystem config chain disabledVerifiers lastUploadedBatchBlock) labels = some finish) :
    QueueInNonceOrder finish.shared.batchQueue := by
  have users : OrderedUsers finish :=
    Machine.run_preserves orderedUsers_step (orderedUsers_initial _ _ _ _) meets ran
  exact fun sender => (users.ordered sender).queue

namespace Sample

/-- The last proof of user 1 gives way to one of user 2, and the next batch is
extracted. -/
def lastGivesWay : List Label :=
  firstProof 0 1 0 3000000 ++ nextProof 1 1 1 1000000 ++ firstProof 2 2 0 2000000 ++ sendBatch

/-- Three proofs of user 1 offer the same, and the second one gives way. -/
def middleGivesWay : List Label :=
  firstProof 0 1 0 1000000 ++ nextProof 1 1 1 1000000 ++ nextProof 2 1 2 1000000 ++
    createUser 3 2 0 2000000 ++ [.readBalance 3 true, .verifyProof 3 fun _ => true,
      .enqueue 3 (.first fun stored => stored.1.nonce = 1)]

end Sample

theorem queue_stays_in_nonce_order_lastGivesWay :
    ∃ finish, (batcher Sample.environment (Sample.config 2)).run
        (Sample.system 2 100000000) Sample.lastGivesWay = some finish ∧
      QueueInNonceOrder finish.shared.batchQueue := by
  have found : ((batcher Sample.environment (Sample.config 2)).run
      (Sample.system 2 100000000) Sample.lastGivesWay).isSome = true := by
    decide +kernel
  obtain ⟨finish, ran⟩ := Option.isSome_iff_exists.mp found
  exact ⟨finish, ran, queue_stays_in_nonce_order Sample.environment (Sample.config 2) _ _ _ _ _
    (by decide +kernel) ran⟩

/-- The queue keeps the nonces 0 and 2 of user 1. -/
theorem middle_nonce_evicted :
    ∃ finish, (batcher Sample.environment (Sample.config 3)).run
        (Sample.system 3 100000000) Sample.middleGivesWay = some finish ∧
      ¬ QueueInNonceOrder finish.shared.batchQueue := by
  have found : ((batcher Sample.environment (Sample.config 3)).run
      (Sample.system 3 100000000) Sample.middleGivesWay).any (fun finish =>
        decide ((finish.shared.batchQueue.entriesOf 1).map BatchQueueEntry.nonce = [0, 2])) =
      true := by
    decide +kernel
  obtain ⟨finish, ran, nonces⟩ := (Option.any_eq_true _ _).mp found
  refine ⟨finish, ran, fun ordered => ?_⟩
  have nonces := of_decide_eq_true nonces
  have present : ∀ nonce ∈ [0, 2], ∃ entry ∈ finish.shared.batchQueue.entriesOf 1,
      entry.nonce = nonce := by
    rw [← nonces]
    exact fun nonce => List.mem_map.mp
  obtain ⟨low, lowMember, lowNonce⟩ := present 0 (by decide)
  obtain ⟨high, highMember, highNonce⟩ := present 2 (by decide)
  obtain ⟨middle, member, nonce⟩ := (ordered 1).contiguous low lowMember high highMember 1
    (by omega) (by omega)
  have stored : middle.nonce ∈ _ := List.mem_map_of_mem member
  rw [nonces, nonce] at stored
  exact absurd stored (by decide)

end AlignedLayer
