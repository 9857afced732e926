import AlignedLayer.Batcher.Capacity

/-!
# A proof for a full queue

The handler of a proof that meets a full queue looks for an entry with a lower
fee whose user is not busy, in whatever order the queue is iterated.
-/

namespace AlignedLayer

/-- The layout that puts some entries first. -/
def Layout.first {Entry : Type} (wanted : Entry → Bool) : Layout Entry :=
  { iter := fun entries => entries.filter wanted ++ entries.filter fun entry => !wanted entry
    heap := id
    iter_perm := List.filter_append_perm wanted
    heap_perm := List.Perm.refl }

theorem Layout.first_iter {Entry : Type} {wanted : Entry → Bool} {entries : List Entry}
    {entry : Entry} (member : entry ∈ entries) (isWanted : wanted entry = true) :
    ∃ head tail, (Layout.first wanted).iter entries = head :: tail ∧ wanted head = true := by
  have selected := List.mem_filter.mpr ⟨member, isWanted⟩
  obtain ⟨head, tail, split⟩ := List.exists_cons_of_ne_nil (List.ne_nil_of_mem selected)
  refine ⟨head, tail ++ entries.filter fun entry => !wanted entry, ?_, ?_⟩
  · calc (Layout.first wanted).iter entries
        = entries.filter wanted ++ entries.filter fun entry => !wanted entry := rfl
      _ = _ := by rw [split, List.cons_append]
  · have headSelected : head ∈ entries.filter wanted := by
      rw [split]
      exact List.mem_cons_self
    exact (List.mem_filter.mp headSelected).2

/-! ## The entry that is given up -/

namespace Shared

variable {layout : QueueLayout} {locks : Ref → Option TaskId} {fee : Nat} {shared : Shared}
  {entry target : BatchQueueEntry} {ref : Ref}

theorem mem_iter_items : entry ∈ (shared.batchQueue.iter layout).map Prod.fst ↔
    entry ∈ shared.batchQueue.items :=
  ((layout.iter_perm shared.batchQueue.entries).map Prod.fst).mem_iff

/-- Nothing is given up only if the users of all outbid entries are busy. -/
theorem busy_of_evictionTarget_eq_none
    (nothing : shared.evictionTarget layout locks fee = none)
    (queued : entry ∈ shared.batchQueue.items) (outbid : entry.maxFee < fee)
    (present : shared.userStates entry.sender = some ref) : locks ref ≠ none := by
  intro free
  have candidate : entry.sender ∈ shared.evictionCandidates layout fee := by
    apply List.mem_map_of_mem
    exact List.mem_filter.mpr ⟨mem_iter_items.mpr queued, decide_eq_true outbid⟩
  have passed := List.findSome?_eq_none_iff.mp nothing _ candidate
  simp only [evictionTargetOf, present, if_pos free, Option.map_eq_none_iff] at passed
  have refused := List.find?_eq_none.mp passed entry (mem_iter_items.mpr queued)
  simp only [decide_true, Bool.true_and, decide_eq_true_eq] at refused
  exact refused outbid

/-- Every outbid entry of a user that is not busy is the first in some order. -/
theorem evictionTarget_first (queued : entry ∈ shared.batchQueue.items)
    (outbid : entry.maxFee < fee) (present : shared.userStates entry.sender = some ref)
    (free : locks ref = none) :
    shared.evictionTarget (Layout.first fun stored => stored.1 = entry) locks fee =
      some (ref, entry) := by
  obtain ⟨priority, member⟩ := PriorityQueue.mem_items.mp queued
  obtain ⟨head, tail, first, isEntry⟩ := @Layout.first_iter _
    (fun stored : BatchQueueEntry × BatchQueueEntryPriority => stored.1 = entry) _ _ member
    (decide_eq_true rfl)
  have ahead : (shared.batchQueue.iter (Layout.first fun stored => stored.1 = entry)).map
      Prod.fst = entry :: tail.map Prod.fst := by
    rw [PriorityQueue.iter, first, List.map_cons, of_decide_eq_true isEntry]
  have target : shared.evictionTargetOf (Layout.first fun stored => stored.1 = entry) locks fee
      entry.sender = some (ref, entry) := by
    simp only [evictionTargetOf, present, if_pos free, ahead]
    rw [List.find?_cons_of_pos (by simpa using outbid), Option.map_some]
  rw [evictionTarget, evictionCandidates, ahead,
    List.filter_cons_of_pos (by simpa using outbid), List.map_cons,
    List.findSome?_cons_of_isSome (by rw [target]; rfl), target]

/-! ## What an eviction needs -/

section Eviction

variable {layout : QueueLayout} {shared evicted : Shared} {ref : Ref}
  {target : BatchQueueEntry}

theorem covered_of_evict_ok (removed : shared.evict layout ref target = .ok evicted)
    (sibling : ∃ entry ∈ (shared.batchQueue.erase target.key).items,
      entry.sender = target.sender) :
    0 < (shared.cells ref).nonce ∧
      target.maxFee ≤ (shared.cells ref).totalFeesInQueue := by
  obtain ⟨entry, queued, same⟩ := sibling
  obtain ⟨last, found⟩ := @lastEntryOf_of_mem layout _ _ queued
  rw [same] at found
  rw [evict] at removed
  simp only [updateEvictedUserState, found] at removed
  cases counters : (shared.cells ref).evictEntry target.maxFee last.maxFee with
  | error panicked =>
      rw [counters] at removed
      cases removed
  | ok userState =>
      obtain ⟨numbered, paid, -⟩ := UserState.evictEntry_eq_ok counters
      exact ⟨numbered, paid⟩

end Eviction

end Shared

section Exchange

variable {queue : BatchQueue} {new target removed : BatchQueueEntry}
  {priority : BatchQueueEntryPriority}

theorem exchanged_of_fresh (queued : target ∈ queue.items)
    (fresh : new.key ∉ queue.items.map BatchQueueEntry.key) :
    (target :: ((queue.erase target.key).push new priority).items).Perm (new :: queue.items) := by
  have before := items_erase_perm queued
  have freshAfter : new.key ∉ (queue.erase target.key).items.map BatchQueueEntry.key := by
    intro stored
    apply fresh
    rw [(before.map BatchQueueEntry.key).mem_iff]
    exact List.mem_cons_of_mem _ stored
  have after := @items_push_perm _ _ priority freshAfter
  calc (target :: ((queue.erase target.key).push new priority).items)
      |>.Perm (target :: new :: (queue.erase target.key).items) := after.cons target
    _ |>.Perm (new :: target :: (queue.erase target.key).items) := .swap _ _ _
    _ |>.Perm (new :: queue.items) := before.symm.cons new

/-- If one entry was exchanged for the new one, it is the one that was erased,
and the new key was free. -/
theorem fresh_of_exchanged (queued : target ∈ queue.items)
    (exchanged : (removed :: ((queue.erase target.key).push new priority).items).Perm
      (new :: queue.items)) :
    removed = target ∧ new.key ∉ (queue.erase target.key).items.map BatchQueueEntry.key := by
  have before := items_erase_perm queued
  have fresh : new.key ∉ (queue.erase target.key).items.map BatchQueueEntry.key := by
    intro stored
    rw [items_push_of_queued stored] at exchanged
    have lengths := exchanged.length_eq
    have erased := before.length_eq
    simp only [List.length_cons] at lengths erased
    omega
  refine ⟨?_, fresh⟩
  have after := @items_push_perm _ _ priority fresh
  have same : (removed :: new :: (queue.erase target.key).items).Perm
      (target :: new :: (queue.erase target.key).items) :=
    (after.cons removed).symm.trans
      (exchanged.trans ((before.cons new).trans (.swap _ _ _)))
  exact List.singleton_perm_singleton.mp
    ((List.perm_append_right_iff (new :: (queue.erase target.key).items)).mp same)

end Exchange

/-! ## The exits of the handler -/

section Exits

variable (environment : Environment) (config : Config) (system : System) (task : TaskId)
  (layout : QueueLayout) (request : Request) (ref : Ref)

/-- How the handler of a new proof ends once it has the lock of a full queue. -/
inductive System.AtFullQueue : System → Prop where
  | rejected (nobody : system.shared.evictionTarget layout system.locks
        request.noncedVerificationData.maxFee = none) :
      AtFullQueue (system.reject task request .underpricedProof)
  | evicted {evictedRef : Ref} {target : BatchQueueEntry} {evicted : Shared}
      (found : system.shared.evictionTarget layout system.locks
        request.noncedVerificationData.maxFee = some (evictedRef, target))
      (removed : system.shared.evict layout evictedRef target = .ok evicted) :
      AtFullQueue ((system.withShared
        (evicted.acceptEntry ref (System.newEntry environment request))).finish task)
  | panicked {evictedRef : Ref} {target : BatchQueueEntry} {evicted : Shared}
      (found : system.shared.evictionTarget layout system.locks
        request.noncedVerificationData.maxFee = some (evictedRef, target))
      (removed : system.shared.evict layout evictedRef target = .error evicted) :
      AtFullQueue ((system.withShared evicted).finish task)

variable {environment config system task layout request ref}

theorem System.enqueue_atFullQueue {balance : Nat}
    (running : system.handlers task = some (request, .enqueue ref balance))
    (full : BatchState.isQueueFull config.maxQueueSize system.shared.batchQueue = true)
    (locked : system.flush = none) :
    ∃ next, system.enqueue environment config task layout = some next ∧
      system.AtFullQueue environment task layout request ref next := by
  rw [System.enqueue, running, locked]
  simp only [Option.isSome_none, Bool.false_eq_true, if_false, full, if_true]
  cases found : system.shared.evictionTarget layout system.locks
      (newEntry environment request).maxFee with
  | none => exact ⟨_, rfl, .rejected found⟩
  | some target =>
      obtain ⟨evictedRef, target⟩ := target
      cases removed : system.shared.evict layout evictedRef target with
      | error panicked =>
          simp only [removed]
          exact ⟨_, rfl, .panicked found removed⟩
      | ok evicted =>
          simp only [removed]
          exact ⟨_, rfl, .evicted found removed⟩

end Exits

/-! ## What the handler is to do -/

section Admission

variable (environment : Environment) (system : System) (request : Request)

/-- The new proof is refused because all users it outbids are busy, or it takes
the place of one entry of another user. -/
inductive System.AdmitsProof : System → Prop where
  | rejected {next : System} (queue : next.shared.batchQueue = system.shared.batchQueue)
      (users : next.shared.userStates = system.shared.userStates)
      (cells : next.shared.cells = system.shared.cells)
      (answered : next.replies = system.replies ++ [(request.wsConnSink, .underpricedProof)])
      (nobody : ∀ entry ∈ system.shared.batchQueue.items, entry.sender ≠ request.addr →
        entry.maxFee < request.noncedVerificationData.maxFee → ∀ evictedRef,
          system.shared.userStates entry.sender = some evictedRef →
            system.locks evictedRef ≠ none) :
      AdmitsProof next
  /-- The removed user keeps its state: to drop it the handler would wait for
  `user_states`, of which it holds a read guard itself. -/
  | evicted {next : System} {removed : BatchQueueEntry}
      (queued : removed ∈ system.shared.batchQueue.items)
      (other : removed.sender ≠ request.addr)
      (lower : removed.maxFee < request.noncedVerificationData.maxFee)
      (exchanged : (removed :: next.shared.batchQueue.items).Perm
        (System.newEntry environment request :: system.shared.batchQueue.items))
      (keepsUser : ∃ entry ∈ (system.shared.batchQueue.erase removed.key).items,
        entry.sender = removed.sender) :
      AdmitsProof next

/-- Every outbid entry of a user that is not busy belongs to somebody else, is
not the only one of its user, and is covered by the counters of its user, and
the new entry has a key of its own. -/
def System.EvictsSafely : Prop :=
  ∀ entry ∈ system.shared.batchQueue.items,
    entry.maxFee < request.noncedVerificationData.maxFee →
    ∀ evictedRef ∈ system.shared.userStates entry.sender, system.locks evictedRef = none →
      entry.sender ≠ request.addr ∧
      (∃ other ∈ system.shared.batchQueue.items,
        other.sender = entry.sender ∧ other.nonce ≠ entry.nonce) ∧
      0 < (system.shared.cells evictedRef).nonce ∧
      entry.maxFee ≤ (system.shared.cells evictedRef).totalFeesInQueue ∧
      (request.addr, request.noncedVerificationData.nonce) ∉
        system.shared.batchQueue.items.map BatchQueueEntry.key

instance : Decidable (system.EvictsSafely request) :=
  inferInstanceAs (Decidable (∀ entry ∈ _, _ → ∀ evictedRef ∈ _, _ → _))

end Admission

section

variable {environment : Environment} {config : Config} {system next : System} {task : TaskId}
  {layout : QueueLayout} {request : Request} {ref : Ref}

theorem System.AtFullQueue.admits (ends : system.AtFullQueue environment task layout request ref next)
    (safe : system.EvictsSafely request) : system.AdmitsProof environment request next := by
  cases ends with
  | rejected nobody =>
      refine .rejected rfl rfl rfl rfl ?_
      intro entry queued other lower evictedRef present
      exact Shared.busy_of_evictionTarget_eq_none nobody queued lower present
  | @evicted evictedRef target evicted found removed =>
      obtain ⟨present, free, ⟨priority, member⟩, lower⟩ := Shared.evictionTarget_eq_some found
      have queued := mem_items_of_mem member
      obtain ⟨other, ⟨sibling, siblingQueued, sender, nonce⟩, -, -, fresh⟩ :=
        safe target queued lower evictedRef present free
      obtain ⟨userStates, cells, rfl⟩ := Shared.evict_eq_ok removed
      refine .evicted queued other lower (exchanged_of_fresh queued fresh) ⟨sibling, ?_, sender⟩
      refine mem_items_erase.mpr ⟨siblingQueued, ?_⟩
      intro sameKey
      exact nonce (congrArg Prod.snd sameKey)
  | @panicked evictedRef target evicted found removed =>
      obtain ⟨present, free, ⟨priority, member⟩, lower⟩ := Shared.evictionTarget_eq_some found
      obtain ⟨-, -, numbered, paid, -⟩ :=
        safe target (mem_items_of_mem member) lower evictedRef present free
      obtain ⟨finished, completes⟩ := @Shared.evict_ok_of_covered layout _ _ _ numbered paid
      rw [completes] at removed
      cases removed

/-- What the admission says about the entry that was given up. -/
theorem System.AtFullQueue.safe {evictedRef : Ref} {entry : BatchQueueEntry}
    (ends : system.AtFullQueue environment task layout request ref next)
    (admits : system.AdmitsProof environment request next)
    (found : system.shared.evictionTarget layout system.locks
      request.noncedVerificationData.maxFee = some (evictedRef, entry)) :
    entry.sender ≠ request.addr ∧
      (∃ other ∈ system.shared.batchQueue.items,
        other.sender = entry.sender ∧ other.nonce ≠ entry.nonce) ∧
      0 < (system.shared.cells evictedRef).nonce ∧
      entry.maxFee ≤ (system.shared.cells evictedRef).totalFeesInQueue ∧
      (request.addr, request.noncedVerificationData.nonce) ∉
        system.shared.batchQueue.items.map BatchQueueEntry.key := by
  obtain ⟨-, -, ⟨priority, member⟩, lower⟩ := Shared.evictionTarget_eq_some found
  have queued := mem_items_of_mem member
  cases ends with
  | rejected nobody =>
      rw [nobody] at found
      cases found
  | evicted foundNow removed =>
      rw [found, Option.some.injEq, Prod.mk.injEq] at foundNow
      obtain ⟨rfl, rfl⟩ := foundNow
      obtain ⟨userStates, cells, shape⟩ := Shared.evict_eq_ok removed
      subst shape
      cases admits with
      | rejected queue users cells answered nobody =>
          -- The evicted entry is not queued any more.
          have stays := queued
          rw [← queue] at stays
          rcases mem_items_push stays with new | erased
          · rw [new] at lower
            exact absurd lower (Nat.lt_irrefl _)
          · exact absurd rfl (mem_items_erase.mp erased).2
      | evicted removedQueued other removedLower exchanged keepsUser =>
          obtain ⟨rfl, fresh⟩ := fresh_of_exchanged queued exchanged
          have covered := Shared.covered_of_evict_ok removed keepsUser
          obtain ⟨sibling, siblingQueued, sender⟩ := keepsUser
          obtain ⟨siblingBefore, differs⟩ := mem_items_erase.mp siblingQueued
          refine ⟨other, ⟨sibling, siblingBefore, sender, ?_⟩, covered.1, covered.2, ?_⟩
          · intro nonce
            exact differs (Prod.ext sender nonce)
          · intro stored
            have kept := ((items_erase_perm queued).map BatchQueueEntry.key).mem_iff.mp stored
            rcases List.mem_cons.mp kept with own | others
            · exact other (congrArg Prod.fst own).symm
            · exact fresh others
  | panicked foundNow removed =>
      rw [found, Option.some.injEq, Prod.mk.injEq] at foundNow
      obtain ⟨rfl, rfl⟩ := foundNow
      obtain ⟨userStates, cells, shape⟩ := Shared.evict_eq_error removed
      subst shape
      cases admits with
      | rejected queue users cells answered nobody =>
          have stays := queued
          rw [← queue] at stays
          exact absurd rfl (mem_items_erase.mp stays).2
      | evicted removedQueued other removedLower exchanged keepsUser =>
          have lengths := exchanged.length_eq
          have erased := (items_erase_perm queued).length_eq
          simp only [List.length_cons, System.finish_shared, System.withShared_shared] at lengths erased
          omega

/-- In every order of the queue the handler admits the proof as it is to, if
and only if every eviction it might make is safe. -/
theorem System.admits_iff {balance : Nat}
    (running : system.handlers task = some (request, .enqueue ref balance))
    (full : BatchState.isQueueFull config.maxQueueSize system.shared.batchQueue = true)
    (locked : system.flush = none) :
    (∀ layout, ∃ next, (batcher environment config).step system (.enqueue task layout) =
        some next ∧ system.AdmitsProof environment request next) ↔
      system.EvictsSafely request := by
  constructor
  · intro admits entry queued lower evictedRef present free
    have found := Shared.evictionTarget_first queued lower present free
    obtain ⟨next, stepped, admitted⟩ := admits (.first fun stored => stored.1 = entry)
    obtain ⟨reached, enqueued, ends⟩ := @System.enqueue_atFullQueue environment config system task
      (.first fun stored => stored.1 = entry) request ref balance running full locked
    have same : reached = next := Option.some.inj (enqueued.symm.trans stepped)
    subst same
    exact ends.safe admitted found
  · intro safe layout
    obtain ⟨next, stepped, ends⟩ := @System.enqueue_atFullQueue environment config system task
      layout request ref balance running full locked
    exact ⟨next, stepped, ends.admits safe⟩

end

theorem full_queue_admission (environment : Environment) (config : Config) (chain : Chain)
    (positive : 1 ≤ config.maxQueueSize) (disabledVerifiers lastUploadedBatchBlock : Nat)
    (labels : List Label) (finish : System)
    (ran : (batcher environment config).run
      (initialSystem config chain disabledVerifiers lastUploadedBatchBlock) labels =
        some finish) :
    finish.shared.batchQueue.len ≤ config.maxQueueSize ∧
      ∀ task request ref balance,
        finish.handlers task = some (request, .enqueue ref balance) →
        BatchState.isQueueFull config.maxQueueSize finish.shared.batchQueue = true →
        finish.flush = none →
        ((∀ layout, ∃ next, (batcher environment config).step finish (.enqueue task layout) =
            some next ∧ finish.AdmitsProof environment request next) ↔
          finish.EvictsSafely request) := by
  refine ⟨len_of_run positive ran, ?_⟩
  intro task request ref balance running full locked
  exact System.admits_iff running full locked

namespace Sample

/-- What is evaluated of a state in which the handler of a task has the lock of
a full queue. -/
def isAtFullQueue (task : TaskId) (property : Request → System → Bool) (system : System) :
    Bool :=
  match system.handlers task with
  | some (request, .enqueue _ _) =>
      BatchState.isQueueFull 2 system.shared.batchQueue && system.flush.isNone &&
        property request system
  | _ => false

theorem isAtFullQueue_eq_true {task : TaskId} {property : Request → System → Bool}
    {system : System} (isAt : isAtFullQueue task property system = true) :
    ∃ request ref balance, system.handlers task = some (request, .enqueue ref balance) ∧
      BatchState.isQueueFull 2 system.shared.batchQueue = true ∧ system.flush = none ∧
      property request system = true := by
  rw [isAtFullQueue] at isAt
  split at isAt
  · next request ref balance running =>
      simp only [Bool.and_eq_true, Option.isNone_iff_eq_none] at isAt
      obtain ⟨⟨full, locked⟩, holds⟩ := isAt
      exact ⟨request, ref, balance, running, full, locked, holds⟩
  · cases isAt

/-- User 2 outbids the two proofs of user 1. -/
def outbidsOther : List Label :=
  firstProof 0 1 0 1000000 ++ nextProof 1 1 1 900000 ++ createUser 2 2 0 2000000 ++
    [.readBalance 2 true, .verifyProof 2 fun _ => true]

/-- The first two messages of user 1 both create its state, and the one whose
state was overwritten outbids the proofs sent meanwhile. -/
def overwritesState : List Label :=
  [.receive 0 (message 1 0 2000000) 1, .checkLocked 0 true, .checkUser 0, .fetchNonce 0 true,
    .receive 1 (message 1 0 1000000) 1, .checkLocked 1 true, .checkUser 1, .fetchNonce 1 true,
    .insertUser 0, .getUser 0, .lockUser 0, .insertUser 1, .getUser 1, .lockUser 1] ++
    addProof 1 ++ nextProof 2 1 1 900000 ++ [.readBalance 0 true, .verifyProof 0 fun _ => true]

end Sample

theorem full_queue_admission_outbid :
    ∃ finish request, (batcher Sample.environment (Sample.config 2)).run
        (Sample.system 2 100000000) Sample.outbidsOther = some finish ∧
      finish.shared.batchQueue.len ≤ 2 ∧
      ∀ layout, ∃ next, (batcher Sample.environment (Sample.config 2)).step finish
        (.enqueue 2 layout) = some next ∧
          finish.AdmitsProof Sample.environment request next := by
  have found : ((batcher Sample.environment (Sample.config 2)).run
      (Sample.system 2 100000000) Sample.outbidsOther).any (Sample.isAtFullQueue 2
        fun request system => system.EvictsSafely request) = true := by
    decide +kernel
  obtain ⟨finish, ran, isAt⟩ := (Option.any_eq_true _ _).mp found
  obtain ⟨request, ref, balance, running, full, locked, safe⟩ := Sample.isAtFullQueue_eq_true isAt
  obtain ⟨fits, admits⟩ := full_queue_admission Sample.environment (Sample.config 2) _
    (by decide) _ _ _ _ ran
  exact ⟨finish, request, ran, fits,
    (admits 2 request ref balance running full locked).mpr (of_decide_eq_true safe)⟩

/-- All queued entries are the sender's own, and one of them gives way. -/
theorem own_entry_evicted :
    ∃ (finish : System) (request : Request) (ref : Ref) (balance : Nat) (next : System),
      (batcher Sample.environment (Sample.config 2)).run (Sample.system 2 100000000)
        Sample.overwritesState = some finish ∧
      finish.handlers 0 = some (request, .enqueue ref balance) ∧
      BatchState.isQueueFull 2 finish.shared.batchQueue = true ∧
      (∀ entry ∈ finish.shared.batchQueue.items, entry.sender = request.addr) ∧
      (batcher Sample.environment (Sample.config 2)).step finish (.enqueue 0 Sample.layout) =
        some next ∧
      next.shared.accepted = finish.shared.accepted ++
        [System.newEntry Sample.environment request] ∧
      ¬ finish.AdmitsProof Sample.environment request next := by
  have found : ((batcher Sample.environment (Sample.config 2)).run
      (Sample.system 2 100000000) Sample.overwritesState).any (Sample.isAtFullQueue 0
        fun request system =>
          decide (∀ entry ∈ system.shared.batchQueue.items, entry.sender = request.addr) &&
          ((batcher Sample.environment (Sample.config 2)).step system
            (.enqueue 0 Sample.layout)).any fun next =>
              next.replies = system.replies ∧ next.shared.accepted = system.shared.accepted ++
                [System.newEntry Sample.environment request]) = true := by
    decide +kernel
  obtain ⟨finish, ran, isAt⟩ := (Option.any_eq_true _ _).mp found
  obtain ⟨request, ref, balance, running, full, -, facts⟩ := Sample.isAtFullQueue_eq_true isAt
  rw [Bool.and_eq_true, decide_eq_true_iff] at facts
  obtain ⟨own, steps⟩ := facts
  obtain ⟨next, stepped, outcome⟩ := (Option.any_eq_true _ _).mp steps
  obtain ⟨silent, accepted⟩ := of_decide_eq_true outcome
  refine ⟨finish, request, ref, balance, next, ran, running, full, own, stepped, accepted, ?_⟩
  intro admits
  cases admits with
  | rejected queue users cells answered nobody =>
      rw [silent] at answered
      cases List.self_eq_append_right.mp answered
  | evicted queued other lower exchanged keepsUser => exact other (own _ queued)

end AlignedLayer
