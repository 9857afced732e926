import AlignedLayer.Batcher.Submissions
import Mathlib.Algebra.BigOperators.Group.List.Lemmas

/-!
# The total of a user covers its entries

`total_fees_in_queue` is compared with the fees of everything the user has
queued or in flight.  The total may be larger for a while, but in the runs in
which user states are only created for addresses without such entries, and
only used while they are current, it is never smaller.
-/

namespace AlignedLayer

section Fees

variable {address : Address} {entry : BatchQueueEntry} {left right lost : List BatchQueueEntry}

@[simp] theorem offeredBy_nil : offeredBy address [] = 0 := rfl

@[simp] theorem offeredBy_cons :
    offeredBy address (entry :: left) =
      (if entry.sender = address then entry.maxFee else 0) + offeredBy address left := by
  by_cases same : entry.sender = address
  · simp [offeredBy, same]
  · simp [offeredBy, same]

@[simp] theorem offeredBy_append :
    offeredBy address (left ++ right) = offeredBy address left + offeredBy address right := by
  simp [offeredBy]

theorem offeredBy_perm (permutation : left.Perm right) : offeredBy address left = offeredBy address right :=
  ((permutation.filter _).map _).sum_eq

theorem offeredBy_le_of_perm (permutation : left.Perm (lost ++ right)) :
    offeredBy address right ≤ offeredBy address left := by
  rw [offeredBy_perm permutation, offeredBy_append]
  exact Nat.le_add_left _ _

theorem offeredBy_eq_zero (absent : ∀ entry ∈ left, entry.sender ≠ address) :
    offeredBy address left = 0 := by
  have nothing : (left.filter fun entry => decide (entry.sender = address)) = [] := by
    simpa using absent
  simp [offeredBy, nothing]

theorem offeredBy_push_le (address : Address) (entry : BatchQueueEntry) (queue : BatchQueue)
    (priority : BatchQueueEntryPriority) :
    offeredBy address (queue.push entry priority).items ≤ offeredBy address (entry :: queue.items) := by
  obtain ⟨dropped, permutation, -⟩ := items_push_spec queue entry priority
  exact offeredBy_le_of_perm permutation

end Fees

namespace Shared

/-- The total of every user is at least what its entries among these offer. -/
def Covers (shared : Shared) (entries : List BatchQueueEntry) : Prop :=
  ∀ address ref, shared.userStates address = some ref →
    offeredBy address entries ≤ (shared.cells ref).totalFeesInQueue

/-- No two addresses have the same user state. -/
def SeparateUsers (shared : Shared) : Prop :=
  ∀ left right ref, shared.userStates left = some ref → shared.userStates right = some ref →
    left = right

theorem SeparateUsers.mono {shared after : Shared} (separate : shared.SeparateUsers)
    (users : ∀ address ref, after.userStates address = some ref →
      shared.userStates address = some ref) : after.SeparateUsers :=
  fun left right ref leftFound rightFound =>
    separate left right ref (users _ _ leftFound) (users _ _ rightFound)

namespace Covers

variable {shared after : Shared} {entries fewer : List BatchQueueEntry}

theorem mono (covers : shared.Covers entries)
    (users : ∀ address ref, after.userStates address = some ref →
      shared.userStates address = some ref)
    (cells : after.cells = shared.cells)
    (le : ∀ address, offeredBy address fewer ≤ offeredBy address entries) : after.Covers fewer := by
  intro address ref found
  rw [cells]
  exact (le address).trans (covers address ref (users _ _ found))

/-- Writing one cell keeps the cover of the other users. -/
theorem writeCell (covers : shared.Covers entries) (separate : shared.SeparateUsers)
    {address : Address} {ref : Ref} {userState : UserState}
    (found : shared.userStates address = some ref)
    (users : after.userStates = shared.userStates)
    (cells : after.cells = Function.update shared.cells ref userState)
    (own : offeredBy address fewer ≤ userState.totalFeesInQueue)
    (others : ∀ other, other ≠ address → offeredBy other fewer ≤ offeredBy other entries) :
    after.Covers fewer := by
  intro other otherRef otherFound
  rw [users] at otherFound
  rw [cells]
  by_cases same : otherRef = ref
  · subst same
    rw [separate other address otherRef otherFound found, Function.update_self]
    exact own
  · have different : other ≠ address := by
      rintro rfl
      rw [found, Option.some.injEq] at otherFound
      exact same otherFound.symm
    rw [Function.update_of_ne same]
    exact (others other different).trans (covers other otherRef otherFound)

/-- The state left by the update for an evicted entry covers the rest. -/
theorem evicted (separate : shared.SeparateUsers) (layout : QueueLayout)
    {removed : BatchQueueEntry} (covers : shared.Covers (removed :: entries)) :
    (left (updateEvictedUserState layout removed (shared.userStates removed.sender)
      shared)).Covers entries := by
  have rest : shared.Covers entries := by
    apply covers.mono (fun _ _ found => found) rfl
    intro address
    rw [offeredBy_cons]
    exact Nat.le_add_left _ _
  cases last : lastEntryOf layout shared.batchQueue removed.sender with
  | none =>
      simp only [updateEvictedUserState, last, left]
      refine rest.mono ?_ rfl fun _ => Nat.le_refl _
      intro address ref found
      by_cases same : address = removed.sender
      · subst same
        simp at found
      · simpa [Function.update_of_ne same] using found
  | some entry =>
      cases found : shared.userStates removed.sender with
      | none =>
          simp only [updateEvictedUserState, last, left]
          exact rest
      | some ref =>
          have own := covers removed.sender ref found
          rw [offeredBy_cons, if_pos rfl] at own
          simp only [updateEvictedUserState, last]
          cases result : (shared.cells ref).evictEntry removed.maxFee entry.maxFee with
          | ok userState =>
              obtain ⟨-, -, -, -, total⟩ := UserState.evictEntry_eq_ok result
              refine rest.writeCell separate found (by rfl) (by rfl) ?_ ?_
              · omega
              · exact fun _ _ => Nat.le_refl _
          | error userState =>
              have total := UserState.evictEntry_eq_error result
              refine rest.writeCell separate found (by rfl) (by rfl) ?_ ?_
              · omega
              · exact fun _ _ => Nat.le_refl _

theorem updateUser {fewer : List BatchQueueEntry} (covers : shared.Covers entries)
    (separate : shared.SeparateUsers) (layout : QueueLayout) (address : Address)
    (queued : offeredBy address fewer ≤ offeredBy address shared.batchQueue.items)
    (others : ∀ other, other ≠ address → offeredBy other fewer ≤ offeredBy other entries) :
    (shared.updateUser layout address).Covers fewer := by
  cases found : shared.userStates address with
  | none =>
      simp only [Shared.updateUser, found]
      intro other ref otherFound
      have different : other ≠ address := by
        rintro rfl
        rw [found] at otherFound
        cases otherFound
      exact (others other different).trans (covers other ref otherFound)
  | some ref =>
      simp only [Shared.updateUser, found]
      refine covers.writeCell separate found (by rfl) (by rfl) ?_ ?_
      · rw [UserState.updateFromQueue_eq]
        exact queued
      · exact others

theorem cleanupUser (covers : shared.Covers entries) (separate : shared.SeparateUsers)
    (layout : QueueLayout) (address : Address) :
    (shared.cleanupUser layout address).Covers entries := by
  cases found : shared.userStates address with
  | none =>
      simp only [Shared.cleanupUser, found]
      exact covers
  | some ref =>
      simp only [Shared.cleanupUser, found]
      split
      · exact covers
      · refine covers.writeCell separate found (by rfl) (by rfl) ?_ ?_
        · exact covers address ref found
        · exact fun _ _ => Nat.le_refl _

/-- The state of a user that has none of the entries may start at zero. -/
theorem createUser (covers : shared.Covers entries) {address : Address} (nonce : Nat)
    (bound : ∀ other ref, shared.userStates other = some ref → ref < shared.nextRef)
    (absent : ∀ entry ∈ entries, entry.sender ≠ address) :
    (shared.createUser address nonce).Covers entries := by
  intro other ref found
  by_cases same : other = address
  · subst same
    rw [offeredBy_eq_zero absent]
    exact Nat.zero_le _
  · have before : shared.userStates other = some ref := by
      simpa [Shared.createUser, Function.update_of_ne same] using found
    have old : ref ≠ shared.nextRef := Nat.ne_of_lt (bound other ref before)
    have cell : (shared.createUser address nonce).cells ref = shared.cells ref :=
      Function.update_of_ne old _ _
    rw [cell]
    exact covers other ref before

/-- Adding an entry grows the total by its fee. -/
theorem acceptEntry (covers : shared.Covers (shared.batchQueue.items ++ entries))
    (separate : shared.SeparateUsers) {entry : BatchQueueEntry} {ref : Ref}
    (found : shared.userStates entry.sender = some ref) :
    (shared.acceptEntry ref entry).Covers
      ((shared.acceptEntry ref entry).batchQueue.items ++ entries) := by
  have own := covers entry.sender ref found
  refine covers.writeCell separate found (by rfl) (by rfl) ?_ ?_
  · have stored := offeredBy_push_le entry.sender entry shared.batchQueue entry.priority
    simp only [offeredBy_cons, offeredBy_append, if_true] at own stored
    simp only [offeredBy_append, Shared.acceptEntry, UserState.addEntry]
    omega
  · intro other different
    have stored := offeredBy_push_le other entry shared.batchQueue entry.priority
    rw [offeredBy_cons, if_neg (Ne.symm different), Nat.zero_add] at stored
    simp only [offeredBy_append, Shared.acceptEntry]
    omega

/-- Replacing an entry grows the total by the difference of the fees. -/
theorem replaceEntry (covers : shared.Covers (shared.batchQueue.items ++ entries))
    (separate : shared.SeparateUsers) {original replacement : BatchQueueEntry} {ref : Ref}
    (queued : original ∈ shared.batchQueue.items) (same : replacement.key = original.key)
    (found : shared.userStates replacement.sender = some ref) :
    (shared.replaceEntry ref original replacement).Covers
      ((shared.replaceEntry ref original replacement).batchQueue.items ++ entries) := by
  have before := items_erase_perm queued
  have after : ((shared.batchQueue.erase replacement.key).push replacement
      replacement.priority).items.Perm
        (replacement :: (shared.batchQueue.erase original.key).items) :=
    items_replace_perm same
  have sender : replacement.sender = original.sender := congrArg Prod.fst same
  have own := covers replacement.sender ref found
  refine covers.writeCell separate found (by rfl) (by rfl) ?_ ?_
  · simp only [offeredBy_append, offeredBy_perm before, offeredBy_cons, sender, if_true] at own
    simp only [Shared.replaceEntry, UserState.replaceEntry, offeredBy_append, offeredBy_perm after,
      offeredBy_cons, sender, if_true]
    omega
  · intro other different
    have notOriginal : original.sender ≠ other := by
      rw [← sender]
      exact Ne.symm different
    simp only [Shared.replaceEntry, offeredBy_append, offeredBy_perm after, offeredBy_perm before,
      offeredBy_cons, if_neg (Ne.symm different), if_neg notOriginal]
    exact Nat.le_refl _

/-- What is queued is part of what is queued or in flight. -/
theorem queued (covers : shared.Covers shared.live) : shared.Covers shared.batchQueue.items := by
  refine covers.mono (fun _ _ found => found) rfl ?_
  intro address
  rw [live, offeredBy_append]
  exact Nat.le_add_right _ _

/-- In a stage that is not open only the queue counts. -/
theorem enter {batch : InFlight} {next : Stage} (closed : next.isOpen = false)
    (covers : shared.Covers shared.batchQueue.items) :
    (shared.enter batch next).Covers (shared.enter batch next).live := by
  refine covers.mono (fun _ _ found => found) rfl ?_
  intro address
  rw [live, inFlight_of_not_open rfl closed, List.append_nil]
  exact Nat.le_refl _

theorem updateUser_enter {layout : QueueLayout} {address : Address} {batch : InFlight}
    {next : Stage} (separate : shared.SeparateUsers) (closed : next.isOpen = false)
    (covers : shared.Covers shared.batchQueue.items) :
    ((shared.updateUser layout address).enter batch next).Covers
      ((shared.updateUser layout address).enter batch next).live := by
  apply Covers.enter closed
  obtain ⟨cells, equation⟩ := updateUser_eq layout address shared
  have updated := covers.updateUser separate layout address (Nat.le_refl _)
    fun _ _ => Nat.le_refl _
  rw [equation] at updated ⊢
  exact updated

end Covers

theorem live_enter_le {shared : Shared} {batch : InFlight} {stage next : Stage}
    (address : Address) (current : shared.batch = some (batch, stage))
    (openness : stage.isOpen = true ∨ next.isOpen = false) :
    offeredBy address (shared.enter batch next).live ≤ offeredBy address shared.live := by
  cases nextOpen : next.isOpen with
  | true =>
      rw [nextOpen] at openness
      have isOpen := openness.resolve_right (by simp)
      rw [live, live, inFlight_enter current isOpen nextOpen]
      exact Nat.le_refl _
  | false =>
      rw [live, live, inFlight_of_not_open rfl nextOpen, List.append_nil, offeredBy_append]
      exact Nat.le_add_right _ _

theorem live_afterFlush_le (address : Address) (origin : FlushOrigin) (shared : Shared) :
    offeredBy address (shared.afterFlush origin).live ≤ offeredBy address shared.live := by
  cases origin with
  | disabledVerifiers => exact Nat.le_refl _
  | insufficientBalance =>
      rw [Shared.afterFlush]
      cases shared.batch with
      | none => exact Nat.le_refl _
      | some work =>
          rw [live, live, inFlight_of_none rfl, List.append_nil, offeredBy_append]
          exact Nat.le_add_right _ _

theorem live_afterFlush_createUser (address : Address) (nonce : Nat) (origin : FlushOrigin)
    (shared : Shared) :
    ((shared.createUser address nonce).afterFlush origin).live =
      (shared.afterFlush origin).live := by
  cases origin with
  | disabledVerifiers => rfl
  | insufficientBalance =>
      have sameBatch : (shared.createUser address nonce).batch = shared.batch := rfl
      rw [Shared.afterFlush, Shared.afterFlush, sameBatch]
      cases shared.batch with
      | none => rfl
      | some work => rfl

end Shared

/-- The condition on a step under which user states are only created for
addresses without entries, and only used while they are current. -/
def UsesCurrentUsers (config : Config) (system : System) : Label → Prop
  | .insertUser task => system.When Phase.inserting (fun request _ =>
      ∀ entry ∈ system.shared.live, entry.sender ≠ request.addr) task
  | .enqueue task _ => system.When Phase.enqueuing (fun request ref =>
      system.shared.userStates request.addr = some ref) task
  | .replace task _ => system.When Phase.replacing (fun request ref =>
      system.shared.userStates request.addr = some ref) task
  | .insertNonpaying => ∀ flush ∈ system.flush, ∀ address ∈ config.nonpayingReplacementAddr,
      ∀ entry ∈ (system.shared.afterFlush flush.1).live, entry.sender ≠ address
  | .respond serializationFails => system.shared.CanRespond serializationFails
  | _ => True

instance (config : Config) (system : System) (label : Label) :
    Decidable (UsesCurrentUsers config system label) := by
  apply @Label.casesOn (fun label => Decidable (UsesCurrentUsers config system label)) label
  all_goals intros
  all_goals dsimp only [UsesCurrentUsers]
  all_goals infer_instance

section

variable {environment : Environment} {config : Config} {system next : System} {label : Label}
  {after : Shared}

theorem Owned.separate (owned : Owned system) : system.shared.SeparateUsers :=
  owned.users_injective

namespace Shared.Covers

/-- A step that leaves the users and their states alone. -/
theorem of_same (covers : system.shared.Covers system.shared.live)
    (users : after.userStates = system.shared.userStates)
    (cells : after.cells = system.shared.cells)
    (le : ∀ address, offeredBy address after.live ≤ offeredBy address system.shared.live) :
    after.Covers after.live := by
  refine covers.mono ?_ cells le
  rw [users]
  exact fun _ _ found => found

end Shared.Covers

private theorem evict_covers {layout : QueueLayout} {fee : Nat} {ref : Ref}
    {target : BatchQueueEntry} (owned : Owned system)
    (covers : system.shared.Covers system.shared.live)
    (found : system.shared.evictionTarget layout system.locks fee = some (ref, target)) :
    (Shared.left (system.shared.evict layout ref target)).Covers
      (Shared.left (system.shared.evict layout ref target)).live := by
  obtain ⟨present, -, ⟨priority, member⟩, -⟩ := Shared.evictionTarget_eq_some found
  have split := items_erase_perm (mem_items_of_mem member)
  have moved : Shared.Covers
      { system.shared with batchQueue := system.shared.batchQueue.erase target.key }
      (target :: ((system.shared.batchQueue.erase target.key).items ++
        system.shared.inFlight)) := by
    refine covers.mono (fun _ _ found => found) rfl ?_
    intro address
    rw [Shared.live, offeredBy_append, offeredBy_perm split]
    simp only [offeredBy_cons, offeredBy_append]
    omega
  have separate : Shared.SeparateUsers
      { system.shared with batchQueue := system.shared.batchQueue.erase target.key } :=
    owned.separate
  have kept := moved.evicted separate layout
  simp only [present] at kept
  obtain ⟨userStates, cells, updated⟩ := Shared.updateEvictedUserState_eq layout target (some ref)
    { system.shared with batchQueue := system.shared.batchQueue.erase target.key }
  obtain ⟨notices, equation⟩ := Shared.left_evict layout ref target system.shared
  rw [updated] at equation kept
  rw [equation]
  exact kept

/-- A step that meets `UsesCurrentUsers` keeps every total a cover. -/
theorem Change.covers (owned : Owned system) (covers : system.shared.Covers system.shared.live)
    (guarded : UsesCurrentUsers config system label)
    (change : Change environment config system label after) : after.Covers after.live := by
  have separate := owned.separate
  cases change with
  | insertUser running =>
      have absent := System.When.running guarded running rfl
      exact covers.createUser _ owned.users_lt absent
  | enqueue running room =>
      have found := System.When.running guarded running rfl
      exact covers.acceptEntry separate found
  | @evict task layout request ref evictedRef balance target evicted running full found removed =>
      have kept := evict_covers owned covers found
      have current := System.When.running guarded running rfl
      have users := Shared.evict_users layout evictedRef system.shared
        (owned.evicts_other running current found)
      have keeps : Shared.Keeps (fun _ => False) system.shared
          (Shared.left (system.shared.evict layout evictedRef target)) :=
        Shared.evict_keeps _ _ _ _ fun impossible => impossible
      rw [removed] at kept users keeps
      exact kept.acceptEntry (separate.mono keeps.users) (users.trans current)
  | evictPanics running full found removed =>
      have kept := evict_covers owned covers found
      rw [removed] at kept
      exact kept
  | @replace task verifier request ref balance original running stored bumped valid =>
      obtain ⟨⟨priority, member⟩, key⟩ := BatchState.getEntry_eq_some stored
      have sameKey : (System.replacementEntry environment request original).key = original.key :=
        System.replacementEntry_key stored
      have current := System.When.running guarded running rfl
      have sender : original.sender = request.addr := congrArg Prod.fst key
      have told : (system.shared.notify [original] .proofReplaced).Covers
          ((system.shared.notify [original] .proofReplaced).batchQueue.items ++
            system.shared.inFlight) := covers
      refine told.replaceEntry separate (mem_items_of_mem member) sameKey ?_
      rw [← sender] at current
      exact current
  | @extract layout gasPrice blockNumber idle =>
      rcases Shared.extract_cases environment config layout
        (gasPrice * gasPricePercentageMultiplier / percentageDivider) blockNumber system.shared
        with ⟨rest, permutation, equation⟩ | ⟨entries, rest, ⟨extracted⟩, equation⟩
      · rw [equation]
        refine covers.of_same rfl rfl ?_
        intro address
        exact Nat.le_of_eq
          (offeredBy_perm ((permutation.map Prod.fst).append_right system.shared.inFlight))
      · rw [equation]
        refine covers.of_same rfl rfl ?_
        intro address
        have moved := @offeredBy_perm address _ _ (Shared.items_of_extracted extracted)
        simp only [Shared.live, Shared.inFlight, Stage.isOpen, if_true, offeredBy_append] at moved ⊢
        omega
  | advance current unsent later =>
      refine covers.of_same rfl rfl fun address => ?_
      exact Shared.live_enter_le address current (.inl (Stage.isOpen_of_isUnsent unsent))
  | @send answer label batch stage next labelled current unsent answered =>
      refine covers.of_same rfl rfl fun address => ?_
      have sameBatch : (system.shared.broadcast batch).batch = some (batch, stage) := current
      exact Shared.live_enter_le address sameBatch (.inl (Stage.isOpen_of_isUnsent unsent))
  | giveUpWaiting current =>
      refine covers.of_same rfl rfl fun address => ?_
      exact Shared.live_enter_le address current (.inl rfl)
  | endCancel current =>
      refine covers.of_same rfl rfl fun address => ?_
      exact Shared.live_enter_le address current (.inl rfl)
  | receipt current included =>
      refine covers.of_same rfl rfl fun address => ?_
      exact Shared.live_enter_le address current (.inr rfl)
  | close current closed updated later =>
      refine covers.of_same rfl rfl fun address => ?_
      refine Shared.live_enter_le address current (.inr ?_)
      rcases later with ⟨users, rfl⟩ | rfl
      · rfl
      · rfl
  | updateUser current member free => exact covers.queued.updateUser_enter separate rfl
  | updateRestoredUser current member free =>
      exact covers.queued.updateUser_enter separate rfl
  | @cleanupUser layout address batch users current free =>
      obtain ⟨cells, equation⟩ := Shared.cleanupUser_eq layout address system.shared
      have cleaned := covers.queued.cleanupUser separate layout address
      rw [equation] at cleaned ⊢
      exact Shared.Covers.enter rfl cleaned
  | endRestored current =>
      refine covers.of_same rfl rfl fun address => ?_
      rw [Shared.live, Shared.inFlight_of_none rfl, List.append_nil, Shared.live, offeredBy_append]
      exact Nat.le_add_right _ _
  | respond current =>
      refine covers.of_same rfl rfl fun address => ?_
      have idle := Shared.respond_batch guarded current
      rw [Shared.live, Shared.inFlight_of_none idle, List.append_nil, Shared.live, offeredBy_append]
      exact Nat.le_add_right _ _
  | @restore layout batch restored current ran =>
      have pending : system.shared.Covers (batch.entries ++ system.shared.batchQueue.items) := by
        refine covers.mono (fun _ _ found => found) rfl ?_
        intro address
        rw [Shared.live, Shared.inFlight_of_open current rfl, offeredBy_append, offeredBy_append,
          Nat.add_comm]
      obtain ⟨queue, users, lost, rfl, permutation⟩ := Shared.restore_eq_some ran
      refine pending.mono (fun _ _ found => found) rfl ?_
      intro address
      rw [offeredBy_perm permutation, offeredBy_append, Shared.live]
      have nothing : Shared.inFlight
          { system.shared with
            batchQueue := queue
            batch := some (batch, .restored users)
            restored := system.shared.restored ++ [batch.number] } = [] := rfl
      rw [nothing, List.append_nil]
      exact Nat.le_add_left _ _
  | flush =>
      intro address ref found
      cases found
  | @flushAndReset label origin stage labelled flushing =>
      have keeps : Shared.Keeps (fun _ => False) system.shared.flush
          (system.shared.flush.afterFlush origin) := Shared.afterFlush_keeps _ _
      intro address ref found
      cases keeps.users address ref found
  | @insertNonpaying origin address nonce flushing configured =>
      have absent := guarded _ flushing _ configured
      have reset : system.shared.Covers (system.shared.afterFlush origin).live :=
        covers.mono (fun _ _ found => found) rfl fun address =>
          Shared.live_afterFlush_le address origin system.shared
      have created := reset.createUser nonce owned.users_lt absent
      have keeps : Shared.Keeps (fun _ => True) (system.shared.createUser address nonce)
          ((system.shared.createUser address nonce).afterFlush origin) :=
        Shared.afterFlush_keeps _ _
      refine created.mono keeps.users (funext fun ref => keeps.cells ref trivial) ?_
      intro other
      rw [Shared.live_afterFlush_createUser]
  | @removeUserProofs address polled =>
      have keeps : Shared.Keeps (fun _ => True) system.shared
          { system.shared with
            userStates := Function.update system.shared.userStates address none } :=
        Shared.Keeps.dropUser _ _
      refine covers.mono keeps.users rfl ?_
      intro other
      have queue : offeredBy other (system.shared.removeUserProofs address).batchQueue.items ≤
          offeredBy other system.shared.batchQueue.items :=
        offeredBy_le_of_perm (Shared.removeUserProofs_perm address system.shared)
      simp only [Shared.live, offeredBy_append]
      exact Nat.add_le_add_right queue _
  | _ => exact covers

end

end AlignedLayer
