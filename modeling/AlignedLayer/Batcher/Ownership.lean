import AlignedLayer.Batcher.Steps

/-!
# Locks of user states

A handler that has passed the validations against a user state still holds its
lock, so what it read there is still true when it adds its entry.  This holds
in every reachable system, whatever the other tasks do.
-/

namespace AlignedLayer

def Label.task? : Label → Option TaskId
  | .receive task _ _ | .checkLocked task _ | .checkUser task | .fetchNonce task _
  | .insertUser task | .getUser task | .lockUser task | .readBalance task _
  | .verifyProof task _ | .enqueue task _ | .replace task _ | .timeout task => some task
  | _ => none

/-! ## What an eviction leaves alone -/

namespace Shared

/-- The data that an operation leaves, whether it finished or panicked. -/
def left : Except Shared Shared → Shared
  | .ok shared => shared
  | .error shared => shared

/-- `after` has no user state that `before` lacks, and the cells that satisfy
`untouched` are the same. -/
structure Keeps (untouched : Ref → Prop) (before after : Shared) : Prop where
  users : ∀ address ref, after.userStates address = some ref →
    before.userStates address = some ref
  nextRef : after.nextRef = before.nextRef
  cells : ∀ ref, untouched ref → after.cells ref = before.cells ref

variable {untouched : Ref → Prop}

theorem Keeps.of_eq {before after : Shared} (users : after.userStates = before.userStates)
    (nextRef : after.nextRef = before.nextRef) (cells : after.cells = before.cells) :
    Keeps untouched before after :=
  ⟨fun _ _ found => users ▸ found, nextRef, fun _ _ => by rw [cells]⟩

theorem Keeps.trans {first second third : Shared} (before : Keeps untouched first second)
    (after : Keeps untouched second third) : Keeps untouched first third where
  users address ref found := before.users address ref (after.users address ref found)
  nextRef := after.nextRef.trans before.nextRef
  cells ref isUntouched := (after.cells ref isUntouched).trans (before.cells ref isUntouched)

theorem Keeps.dropUser (address : Address) (shared : Shared) :
    Keeps untouched shared
      { shared with userStates := Function.update shared.userStates address none } where
  users other ref found := by
    by_cases same : other = address
    · subst same
      simp at found
    · exact (Function.update_of_ne same none shared.userStates) ▸ found
  nextRef := rfl
  cells _ _ := rfl

theorem Keeps.updateCell {ref : Ref} (touched : ¬ untouched ref) (userState : UserState)
    (shared : Shared) :
    Keeps untouched shared
      { shared with cells := Function.update shared.cells ref userState } where
  users _ _ found := found
  nextRef := rfl
  cells other isUntouched := by
    refine Function.update_of_ne ?_ _ _
    rintro rfl
    exact touched isUntouched

theorem updateEvictedUserState_keeps (layout : QueueLayout) (removed : BatchQueueEntry)
    (userStateRef : Option Ref) (shared : Shared)
    (touched : lastEntryOf layout shared.batchQueue removed.sender ≠ none →
      ∀ ref, userStateRef = some ref → ¬ untouched ref) :
    Keeps untouched shared (left (updateEvictedUserState layout removed userStateRef shared)) := by
  cases found : lastEntryOf layout shared.batchQueue removed.sender with
  | none =>
      simp only [updateEvictedUserState, found]
      exact Keeps.dropUser _ _
  | some last =>
      cases userStateRef with
      | none =>
          simp only [updateEvictedUserState, found]
          exact .of_eq rfl rfl rfl
      | some ref =>
          have isTouched := touched (by simp [found]) ref rfl
          simp only [updateEvictedUserState, found]
          cases (shared.cells ref).evictEntry removed.maxFee last.maxFee with
          | ok userState => exact Keeps.updateCell isTouched _ _
          | error userState => exact Keeps.updateCell isTouched _ _

theorem evict_keeps (layout : QueueLayout) (userStateRef : Ref) (target : BatchQueueEntry)
    (shared : Shared) (touched : ¬ untouched userStateRef) :
    Keeps untouched shared (left (shared.evict layout userStateRef target)) := by
  have erased : Keeps untouched shared
      { shared with batchQueue := shared.batchQueue.erase target.key } := .of_eq rfl rfl rfl
  have updated := updateEvictedUserState_keeps layout target (some userStateRef)
    { shared with batchQueue := shared.batchQueue.erase target.key } (fun _ ref same => by
      rw [Option.some.injEq] at same
      exact same ▸ touched)
  rw [evict]
  cases result : updateEvictedUserState layout target (some userStateRef)
      { shared with batchQueue := shared.batchQueue.erase target.key } with
  | error panicked =>
      rw [result] at updated
      exact erased.trans updated
  | ok finished =>
      rw [result] at updated
      exact (erased.trans updated).trans (.of_eq rfl rfl rfl)

end Shared

/-! ## Handlers only move themselves -/

section

variable {environment : Environment} {config : Config} {system next : System}

/-- The handlers and the locks of the tasks other than `task` are the same. -/
def System.SameOthers (task : Option TaskId) (system next : System) : Prop :=
  ∀ other, task ≠ some other →
    next.handlers other = system.handlers other ∧
      ∀ ref, system.locks ref = some other → next.locks ref = some other

theorem System.SameOthers.of_eq {task : Option TaskId}
    (handlers : next.handlers = system.handlers) (locks : next.locks = system.locks) :
    System.SameOthers task system next :=
  fun other _ => ⟨by rw [handlers], fun ref held => by rw [locks, held]⟩

theorem System.sameOthers_goto (task : TaskId) (request : Request) (phase : Phase) :
    System.SameOthers (some task) system (system.goto task request phase) := by
  intro other different
  refine ⟨Function.update_of_ne ?_ _ _, fun _ held => held⟩
  rintro rfl
  exact different rfl

theorem System.sameOthers_finish (task : TaskId) :
    System.SameOthers (some task) system (system.finish task) := by
  intro other different
  have ne : other ≠ task := by
    rintro rfl
    exact different rfl
  refine ⟨Function.update_of_ne ne _ _, fun ref held => ?_⟩
  simp [System.finish, held, ne]

private theorem finishFlush_handlers (origin : FlushOrigin) (system : System) :
    (system.finishFlush origin).handlers = system.handlers ∧
      (system.finishFlush origin).locks = system.locks := by
  cases origin with
  | disabledVerifiers => exact ⟨rfl, rfl⟩
  | insufficientBalance =>
      rw [System.finishFlush]
      cases system.shared.batch with
      | none => exact ⟨rfl, rfl⟩
      | some batch => exact ⟨rfl, rfl⟩

private theorem afterSend_handlers {answer : SendAnswer} {batch : InFlight} {later : Stage}
    (stepped : system.afterSend environment config batch later answer = some next) :
    next.handlers = system.handlers ∧ next.locks = system.locks := by
  unfold System.afterSend at stepped
  repeat' split at stepped
  all_goals first | (cases stepped; exact ⟨rfl, rfl⟩) | cases stepped

/-- The steps that are not taken by a message handler. -/
theorem step_handlers_of_no_task {label : Label}
    (stepped : (batcher environment config).step system label = some next)
    (noTask : label.task? = none) :
    next.handlers = system.handlers ∧ next.locks = system.locks := by
  cases label
  all_goals simp only [Label.task?, reduceCtorEq] at noTask
  case send | sendFallback =>
    simp only [batcher, System.send, System.sendFallback] at stepped
    split at stepped
    · exact afterSend_handlers stepped
    · cases stepped
  case restore =>
    simp only [batcher, System.restore] at stepped
    repeat' split at stepped
    all_goals try cases stepped
    obtain ⟨restored, -, rfl⟩ := Option.map_eq_some_iff.mp stepped
    exact ⟨rfl, rfl⟩
  case fetchNonpayingNonce | clearQueue | insertNonpaying =>
    simp only [batcher, System.fetchNonpayingNonce, System.clearQueue,
      System.insertNonpaying] at stepped
    repeat' split at stepped
    all_goals first
      | (cases stepped; exact ⟨rfl, rfl⟩)
      | (cases stepped; exact finishFlush_handlers _ _)
      | cases stepped
  case mine | userCall =>
    obtain ⟨chain, -, rfl⟩ := Option.map_eq_some_iff.mp stepped
    exact ⟨rfl, rfl⟩
  all_goals
    simp only [batcher, System.newBlock, System.setDisabledVerifiers, System.extract,
      System.finalize, System.failSubmission, System.simulate, System.receipt,
      System.giveUpWaiting, System.endCancel, System.updateUser, System.cleanupUser,
      System.skipCleanup, System.endUpdates, System.respond, System.startFlush,
      System.pollProofs, System.pollBalance, System.stopPolling, System.removeUserProofs,
      System.dropTransaction] at stepped
    repeat' split at stepped
  all_goals first | (cases stepped; exact ⟨rfl, rfl⟩) | cases stepped

private theorem lockUser_sameOthers {task : TaskId}
    (stepped : system.lockUser task = some next) :
    System.SameOthers (some task) system next := by
  rw [System.lockUser] at stepped
  split at stepped
  · rename_i request ref running
    split at stepped
    · rename_i free
      cases stepped
      intro other different
      refine ⟨(System.sameOthers_goto task request _ other different).1, fun held locked => ?_⟩
      have ne : held ≠ ref := by
        rintro rfl
        rw [free] at locked
        cases locked
      exact (Function.update_of_ne ne _ _).trans locked
    · cases stepped
  · cases stepped

theorem step_sameOthers {label : Label}
    (stepped : (batcher environment config).step system label = some next) :
    System.SameOthers label.task? system next := by
  cases label
  case lockUser => exact lockUser_sameOthers stepped
  case receive | checkLocked | checkUser | fetchNonce | insertUser | getUser | readBalance
      | verifyProof | enqueue | replace | timeout =>
    simp only [batcher, System.receive, System.checkLocked, System.checkUser, System.fetchNonce,
      System.insertUser, System.getUser, System.readBalance, System.verifyProof,
      System.enqueue, System.replace, System.timeout] at stepped
    repeat' split at stepped
    all_goals first
      | (cases stepped; exact .of_eq rfl rfl)
      | (cases stepped; exact System.sameOthers_goto _ _ _)
      | (cases stepped; exact System.sameOthers_finish _)
      | cases stepped
  all_goals
    obtain ⟨handlers, locks⟩ := step_handlers_of_no_task stepped rfl
    exact .of_eq handlers locks

/-! ## What a handler relies on -/

/-- The message passed the validations against this user state. -/
structure UserState.Admits (userState : UserState) (data : NoncedVerificationData)
    (balance : Nat) : Prop where
  nonce : userState.nonce = data.nonce
  fee : data.maxFee ≤ userState.lastMaxFeeLimit
  covered : userState.totalFeesInQueue + data.maxFee ≤ balance

/-- What a handler of `task` in this phase knows about the user state. -/
def System.Relies (system : System) (task : TaskId) (request : Request) : Phase → Prop
  | .lockUser ref => ref < system.shared.nextRef
  | .readBalance ref => ref < system.shared.nextRef ∧ system.locks ref = some task
  | .verifyProof ref balance | .enqueue ref balance =>
      ref < system.shared.nextRef ∧ system.locks ref = some task ∧
        (system.shared.cells ref).Admits request.noncedVerificationData balance
  | .replace ref balance =>
      ref < system.shared.nextRef ∧ system.locks ref = some task ∧
        (system.shared.cells ref).totalFeesInQueue + request.noncedVerificationData.maxFee ≤
          balance
  | _ => True

structure Owned (system : System) : Prop where
  users_lt : ∀ address ref, system.shared.userStates address = some ref →
    ref < system.shared.nextRef
  users_injective : ∀ left right ref, system.shared.userStates left = some ref →
    system.shared.userStates right = some ref → left = right
  relies : ∀ task request phase, system.handlers task = some (request, phase) →
    system.Relies task request phase

/-- A handler's own step leaves it with what its next phase relies on. -/
theorem step_relies {label : Label} {task : TaskId} {request : Request} {phase : Phase}
    (stepped : (batcher environment config).step system label = some next)
    (own : label.task? = some task) (owned : Owned system)
    (running : next.handlers task = some (request, phase)) : next.Relies task request phase := by
  cases label
  all_goals simp only [Label.task?, Option.some.injEq, reduceCtorEq] at own
  all_goals subst own
  case lockUser =>
    simp only [batcher, System.lockUser] at stepped
    split at stepped
    · rename_i request ref before
      split at stepped
      · cases stepped
        simp only [System.goto, Function.update_self, Option.some.injEq, Prod.mk.injEq] at running
        obtain ⟨rfl, rfl⟩ := running
        exact ⟨owned.relies _ _ _ before, Function.update_self _ _ _⟩
      · cases stepped
    · cases stepped
  case getUser =>
    simp only [batcher, System.getUser] at stepped
    repeat' split at stepped
    all_goals cases stepped
    · simp [System.reject, System.finish] at running
    · rename_i found
      simp only [System.goto, Function.update_self, Option.some.injEq, Prod.mk.injEq] at running
      obtain ⟨rfl, rfl⟩ := running
      exact owned.users_lt _ _ found
  case readBalance =>
    simp only [batcher, System.readBalance] at stepped
    split at stepped
    · rename_i request ref before
      obtain ⟨bound, held⟩ := owned.relies _ _ _ before
      repeat' split at stepped
      all_goals cases stepped
      all_goals simp only [System.goto, System.reject, System.finish, Function.update_self,
        Option.some.injEq, Prod.mk.injEq, reduceCtorEq] at running
      · obtain ⟨rfl, rfl⟩ := running
        simp only [System.Relies, System.goto_shared]
        exact ⟨bound, held, by omega⟩
      · obtain ⟨rfl, rfl⟩ := running
        simp only [System.Relies, System.goto_shared]
        exact ⟨bound, held, ⟨by omega, by omega, by omega⟩⟩
    · cases stepped
  case verifyProof =>
    simp only [batcher, System.verifyProof] at stepped
    split at stepped
    · rename_i request ref balance before
      repeat' split at stepped
      all_goals cases stepped
      all_goals simp only [System.goto, System.reject, System.finish, Function.update_self,
        Option.some.injEq, Prod.mk.injEq, reduceCtorEq] at running
      obtain ⟨rfl, rfl⟩ := running
      exact owned.relies _ _ _ before
    · cases stepped
  case receive =>
    simp only [batcher, System.receive] at stepped
    repeat' split at stepped
    all_goals cases stepped
    all_goals simp_all [System.reply, System.goto]
    obtain ⟨-, rfl⟩ := running
    trivial
  all_goals
    simp only [batcher, System.checkLocked, System.checkUser, System.fetchNonce,
      System.insertUser, System.enqueue, System.replace, System.timeout] at stepped
    repeat' split at stepped
  all_goals cases stepped
  all_goals simp only [System.goto, System.reject, System.finish, Function.update_self,
    Option.some.injEq, Prod.mk.injEq, reduceCtorEq] at running
  all_goals
    obtain ⟨-, rfl⟩ := running
    trivial

/-! ## Cells whose lock is held -/

/-- The lock of the cell is held by a task that does not take this step. -/
def System.HeldByOther (system : System) (label : Label) (ref : Ref) : Prop :=
  ∃ task, label.task? ≠ some task ∧ system.locks ref = some task

theorem not_heldByOther_of_free {label : Label} {address : Address} {ref : Ref}
    (found : system.shared.userStates address = some ref)
    (free : system.userIsFree address = true) : ¬ system.HeldByOther label ref := by
  rintro ⟨task, -, held⟩
  simp [System.userIsFree, found, held] at free

theorem Shared.evictionTarget_eq_some {layout : QueueLayout} {locks : Ref → Option TaskId}
    {fee : Nat} {shared : Shared} {ref : Ref} {target : BatchQueueEntry}
    (found : shared.evictionTarget layout locks fee = some (ref, target)) :
    shared.userStates target.sender = some ref ∧ locks ref = none ∧
      (∃ priority, (target, priority) ∈ shared.batchQueue.entries) ∧ target.maxFee < fee := by
  obtain ⟨candidate, -, foundAt⟩ := List.exists_of_findSome?_eq_some found
  rw [evictionTargetOf] at foundAt
  split at foundAt
  · cases foundAt
  · rename_i candidateRef present
    split at foundAt
    · rename_i free
      obtain ⟨entry, entryFound, same⟩ := Option.map_eq_some_iff.mp foundAt
      rw [Prod.mk.injEq] at same
      obtain ⟨rfl, rfl⟩ := same
      have outbid := List.find?_some entryFound
      simp only [Bool.and_eq_true, decide_eq_true_eq] at outbid
      obtain ⟨stored, member, rfl⟩ := List.mem_map.mp (List.mem_of_find?_eq_some entryFound)
      rw [PriorityQueue.mem_iter] at member
      exact ⟨outbid.1 ▸ present, free, ⟨stored.2, member⟩, outbid.2⟩
    · cases foundAt

private theorem evict_found_keeps {layout : QueueLayout} {fee : Nat} {ref : Ref}
    {target : BatchQueueEntry} (label : Label)
    (found : system.shared.evictionTarget layout system.locks fee = some (ref, target)) :
    Shared.Keeps (system.HeldByOther label) system.shared
      (Shared.left (system.shared.evict layout ref target)) := by
  refine Shared.evict_keeps _ _ _ _ ?_
  rintro ⟨task, -, held⟩
  rw [(Shared.evictionTarget_eq_some found).2.1] at held
  cases held

theorem Shared.updateUser_keeps {layout : QueueLayout} {address : Address} {shared : Shared}
    {untouched : Ref → Prop}
    (touched : ∀ ref, shared.userStates address = some ref → ¬ untouched ref) :
    Shared.Keeps untouched shared (shared.updateUser layout address) := by
  rw [Shared.updateUser]
  cases found : shared.userStates address with
  | none => exact .of_eq rfl rfl rfl
  | some ref => exact .updateCell (touched ref found) _ _

theorem Shared.cleanupUser_keeps {layout : QueueLayout} {address : Address} {shared : Shared}
    {untouched : Ref → Prop}
    (touched : ∀ ref, shared.userStates address = some ref → ¬ untouched ref) :
    Shared.Keeps untouched shared (shared.cleanupUser layout address) := by
  rw [Shared.cleanupUser]
  cases found : shared.userStates address with
  | none => exact .of_eq rfl rfl rfl
  | some ref =>
      simp only
      split
      · exact .of_eq rfl rfl rfl
      · exact .updateCell (touched ref found) _ _

theorem Shared.flush_keeps {untouched : Ref → Prop} (shared : Shared) :
    Shared.Keeps untouched shared shared.flush where
  users _ _ found := by cases found
  nextRef := rfl
  cells _ _ := rfl

theorem Shared.afterFlush_keeps {untouched : Ref → Prop} (origin : FlushOrigin)
    (shared : Shared) : Shared.Keeps untouched shared (shared.afterFlush origin) := by
  cases origin with
  | disabledVerifiers => exact .of_eq rfl rfl rfl
  | insufficientBalance =>
      rw [Shared.afterFlush]
      cases shared.batch with
      | none => exact .of_eq rfl rfl rfl
      | some batch => exact .of_eq rfl rfl rfl

/-- A step keeps the users and the cells held by other tasks, or it creates a
user. -/
theorem Change.keeps_or_creates {label : Label} {after : Shared} (owned : Owned system)
    (change : Change environment config system label after) :
    Shared.Keeps (system.HeldByOther label) system.shared after ∨
      ∃ address nonce, Shared.Keeps (fun _ => True)
        (system.shared.createUser address nonce) after := by
  have own : ∀ {task : TaskId} {request : Request} {ref : Ref} {phase : Phase},
      system.handlers task = some (request, phase) → label.task? = some task →
      system.locks ref = some task → ¬ system.HeldByOther label ref := by
    rintro task request ref phase - acting held ⟨other, different, otherHeld⟩
    rw [held, Option.some.injEq] at otherHeld
    exact different (otherHeld ▸ acting)
  cases change with
  | insertUser running => exact .inr ⟨_, _, .of_eq rfl rfl rfl⟩
  | insertNonpaying flushing configured => exact .inr ⟨_, _, Shared.afterFlush_keeps _ _⟩
  | enqueue running room =>
      have held := (owned.relies _ _ _ running).2.1
      exact .inl ((Shared.Keeps.updateCell (own running rfl held) _ _).trans
        (.of_eq rfl rfl rfl))
  | @evict task layout _ _ _ _ _ _ running full found removed =>
      have held := (owned.relies _ _ _ running).2.1
      have keeps := evict_found_keeps (.enqueue task layout) found
      rw [removed] at keeps
      exact .inl ((keeps.trans (.updateCell (own running rfl held) _ _)).trans
        (.of_eq rfl rfl rfl))
  | @evictPanics task layout _ _ _ _ _ _ running full found removed =>
      have keeps := evict_found_keeps (.enqueue task layout) found
      rw [removed] at keeps
      exact .inl keeps
  | replace running stored bumped valid =>
      have held := (owned.relies _ _ _ running).2.1
      exact .inl ((Shared.Keeps.updateCell (own running rfl held) _ _).trans
        (.of_eq rfl rfl rfl))
  | extract idle =>
      rw [Shared.extract]
      split
      · exact .inl (.of_eq rfl rfl rfl)
      · exact .inl (.of_eq rfl rfl rfl)
  | updateUser current member free =>
      exact .inl ((Shared.updateUser_keeps fun ref found =>
        not_heldByOther_of_free found free).trans (.of_eq rfl rfl rfl))
  | updateRestoredUser current member free =>
      exact .inl ((Shared.updateUser_keeps fun ref found =>
        not_heldByOther_of_free found free).trans (.of_eq rfl rfl rfl))
  | cleanupUser current free =>
      exact .inl ((Shared.cleanupUser_keeps fun ref found =>
        not_heldByOther_of_free found free).trans (.of_eq rfl rfl rfl))
  | restore current ran =>
      obtain ⟨⟨queue, restoredEntries⟩, -, rfl⟩ := Option.map_eq_some_iff.mp ran
      exact .inl (.of_eq rfl rfl rfl)
  | flush => exact .inl (Shared.flush_keeps _)
  | flushAndReset labelled flushing =>
      exact .inl ((Shared.flush_keeps _).trans (Shared.afterFlush_keeps _ _))
  | removeUserProofs polled =>
      exact .inl ((Shared.Keeps.dropUser _ _).trans (.of_eq rfl rfl rfl))
  | _ => exact .inl (.of_eq rfl rfl rfl)

theorem Change.nextRef_le {label : Label} {after : Shared} (owned : Owned system)
    (change : Change environment config system label after) :
    system.shared.nextRef ≤ after.nextRef := by
  rcases change.keeps_or_creates owned with keeps | ⟨address, nonce, keeps⟩
  · exact Nat.le_of_eq keeps.nextRef.symm
  · rw [keeps.nextRef]
    exact Nat.le_succ _

/-- A cell whose lock another task holds keeps its content. -/
theorem Change.cells_of_held {label : Label} {after : Shared} {ref : Ref} (owned : Owned system)
    (change : Change environment config system label after)
    (bound : ref < system.shared.nextRef) (held : system.HeldByOther label ref) :
    after.cells ref = system.shared.cells ref := by
  rcases change.keeps_or_creates owned with keeps | ⟨address, nonce, keeps⟩
  · exact keeps.cells ref held
  · rw [keeps.cells ref trivial]
    exact Function.update_of_ne (Nat.ne_of_lt bound) _ _

private theorem owned_users {before after : Shared} {untouched : Ref → Prop}
    (lt : ∀ address ref, before.userStates address = some ref → ref < before.nextRef)
    (injective : ∀ left right ref, before.userStates left = some ref →
      before.userStates right = some ref → left = right)
    (keeps : Shared.Keeps untouched before after) :
    (∀ address ref, after.userStates address = some ref → ref < after.nextRef) ∧
      ∀ left right ref, after.userStates left = some ref →
        after.userStates right = some ref → left = right := by
  refine ⟨fun address ref found => ?_, fun left right ref leftFound rightFound => ?_⟩
  · rw [keeps.nextRef]
    exact lt address ref (keeps.users _ _ found)
  · exact injective left right ref (keeps.users _ _ leftFound) (keeps.users _ _ rightFound)

private theorem createUser_users (address : Address) (nonce : Nat) (owned : Owned system) :
    let created := system.shared.createUser address nonce
    (∀ other ref, created.userStates other = some ref → ref < created.nextRef) ∧
      ∀ left right ref, created.userStates left = some ref →
        created.userStates right = some ref → left = right := by
  have cases : ∀ other ref,
      (system.shared.createUser address nonce).userStates other = some ref →
      (other = address ∧ ref = system.shared.nextRef) ∨
        (ref < system.shared.nextRef ∧ system.shared.userStates other = some ref) := by
    intro other ref found
    by_cases same : other = address
    · subst same
      simp only [Shared.createUser, Function.update_self, Option.some.injEq] at found
      exact .inl ⟨rfl, found.symm⟩
    · simp only [Shared.createUser, Function.update_of_ne same] at found
      exact .inr ⟨owned.users_lt _ _ found, found⟩
  constructor
  · intro other ref found
    rcases cases other ref found with ⟨-, rfl⟩ | ⟨bound, -⟩
    · exact Nat.lt_succ_self _
    · exact Nat.lt_succ_of_lt bound
  · intro left right ref leftFound rightFound
    rcases cases left ref leftFound with ⟨rfl, rfl⟩ | ⟨leftBound, leftOld⟩
    · rcases cases right _ rightFound with ⟨same, -⟩ | ⟨rightBound, -⟩
      · exact same.symm
      · exact absurd rightBound (Nat.lt_irrefl _)
    · rcases cases right ref rightFound with ⟨-, rfl⟩ | ⟨-, rightOld⟩
      · exact absurd leftBound (Nat.lt_irrefl _)
      · exact owned.users_injective _ _ _ leftOld rightOld

/-- What another task relies on survives a step. -/
private theorem relies_of_other {label : Label} {task : TaskId} {request : Request}
    {phase : Phase} (stepped : (batcher environment config).step system label = some next)
    (owned : Owned system) (other : label.task? ≠ some task)
    (running : system.handlers task = some (request, phase)) :
    next.Relies task request phase := by
  have change := step_change stepped
  have before := owned.relies _ _ _ running
  have bound := change.nextRef_le owned
  have locks := (step_sameOthers stepped task other).2
  cases phase with
  | lockUser ref => exact before.trans_le bound
  | readBalance ref => exact ⟨before.1.trans_le bound, locks ref before.2⟩
  | verifyProof ref balance | enqueue ref balance | replace ref balance =>
      obtain ⟨refBound, held, known⟩ := before
      refine ⟨refBound.trans_le bound, locks ref held, ?_⟩
      rwa [change.cells_of_held owned refBound ⟨task, other, held⟩]
  | _ => trivial

theorem owned_step {label : Label} (owned : Owned system)
    (stepped : (batcher environment config).step system label = some next) : Owned next := by
  have users : (∀ address ref, next.shared.userStates address = some ref →
        ref < next.shared.nextRef) ∧
      ∀ left right ref, next.shared.userStates left = some ref →
        next.shared.userStates right = some ref → left = right := by
    rcases (step_change stepped).keeps_or_creates owned with keeps | ⟨address, nonce, keeps⟩
    · exact owned_users owned.users_lt owned.users_injective keeps
    · obtain ⟨lt, injective⟩ := createUser_users address nonce owned
      exact owned_users lt injective keeps
  refine ⟨users.1, users.2, fun task request phase running => ?_⟩
  by_cases own : label.task? = some task
  · exact step_relies stepped own owned running
  · rw [(step_sameOthers stepped task own).1] at running
    exact relies_of_other stepped owned own running

end

/-- The only user at the start has the first cell. -/
theorem Shared.initial_userStates {config : Config} {chain : Chain} {address : Address}
    {ref : Ref} (found : (Shared.initial config chain).userStates address = some ref) :
    config.nonpayingReplacementAddr = some address ∧ ref = 0 ∧
      (Shared.initial config chain).nextRef = 1 := by
  cases configured : config.nonpayingReplacementAddr with
  | none =>
      simp only [Shared.initial, configured] at found
      cases found
  | some replacement =>
      simp only [Shared.initial, configured, Shared.createUser] at found ⊢
      by_cases same : address = replacement
      · subst same
        rw [Function.update_self, Option.some.injEq] at found
        exact ⟨rfl, found.symm, rfl⟩
      · rw [Function.update_of_ne same] at found
        cases found

theorem owned_initial (config : Config) (chain : Chain)
    (disabledVerifiers lastUploadedBatchBlock : Nat) :
    Owned (initialSystem config chain disabledVerifiers lastUploadedBatchBlock) := by
  refine ⟨?_, ?_, fun task request phase running => by cases running⟩
  · intro address ref found
    obtain ⟨-, rfl, bound⟩ := Shared.initial_userStates found
    simp [initialSystem, bound]
  · intro left right ref leftFound rightFound
    have leftIs := (Shared.initial_userStates leftFound).1
    rw [(Shared.initial_userStates rightFound).1, Option.some.injEq] at leftIs
    exact leftIs.symm

end AlignedLayer
