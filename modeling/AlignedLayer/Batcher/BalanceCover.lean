import AlignedLayer.Batcher.Cover
import AlignedLayer.Batcher.Flow

/-!
# Balances cover the accepted proofs

A handler that adds a proof has read a balance that covers everything its user
has queued or in flight.  Until the user withdraws, its balance then covers
everything it has waiting, so that no batch can fail for this user.
-/

namespace AlignedLayer

variable {environment : Environment} {config : Config} {system next : System} {label : Label}
  {after : Shared} {user : Address}

theorem offeredBy_waiting_le_live (shared : Shared) :
    offeredBy user shared.waiting ≤ offeredBy user shared.live := by
  simp only [Shared.waiting, Shared.live, offeredBy_append, Shared.unmined]
  cases shared.batch with
  | none => exact Nat.le_add_right _ _
  | some work =>
      simp only
      split
      · exact Nat.add_le_add_left (Nat.zero_le _) _
      · exact Nat.le_refl _

/-! ## What the chain takes -/

/-- The calls of the batch in flight name the senders of its entries. -/
def CallsMatch (shared : Shared) : Prop :=
  ∀ batch stage, shared.batch = some (batch, stage) →
    batch.call.proofSubmitters = batch.entries.map BatchQueueEntry.sender

theorem Change.callsMatch (calls : CallsMatch system.shared)
    (change : Change environment config system label after) : CallsMatch after := by
  intro batch stage current
  rcases change.batch_cases current with ⟨earlier, before⟩ | ⟨gasPrice, root, -, call⟩
  · exact calls batch earlier before
  · rw [call]
    rfl

/-- The condition on a step under which a batch costs each of its entries at
most its `max_fee`, and the user does not withdraw. -/
def ChargesWithin (user : Address) (system : System) : Label → Prop
  | .mine _ _ => system.shared.OfBatch fun batch =>
      ∀ entry ∈ batch.entries, batch.call.feePerProof ≤ entry.maxFee
  | .userCall (.withdraw sender _ _) => sender ≠ user
  | _ => True

instance (user : Address) (system : System) (label : Label) :
    Decidable (ChargesWithin user system label) := by
  apply @Label.casesOn (fun label => Decidable (ChargesWithin user system label)) label
  case userCall =>
    intro call
    apply @UserCall.casesOn (fun call => Decidable (ChargesWithin user system (.userCall call))) call
    all_goals intros
    all_goals dsimp only [ChargesWithin]
    all_goals infer_instance
  all_goals intros
  all_goals dsimp only [ChargesWithin]
  all_goals infer_instance

/-- Writing one user's data keeps the balance of the others. -/
private theorem balance_update {userData : Address → BatcherPaymentService.UserInfo}
    {sender : Address} {info : BatcherPaymentService.UserInfo}
    (own : sender = user → (userData user).balance ≤ info.balance) :
    (userData user).balance ≤ (Function.update userData sender info user).balance := by
  by_cases same : user = sender
  · subst same
    rw [Function.update_self]
    exact own rfl
  · rw [Function.update_of_ne same]

/-- No call but a withdrawal by the user lowers its balance. -/
theorem Chain.userCall_balance {call : UserCall} {chain called : Chain}
    (within : ChargesWithin user system (.userCall call))
    (ran : chain.userCall call = some called) :
    chain.userBalance user ≤ called.userBalance user := by
  simp only [Chain.userCall] at ran
  split at ran
  · rename_i service result
    cases ran
    simp only [Chain.userBalance, BatcherPaymentService.userBalances]
    cases call with
    | deposit sender value =>
        simp only [BatcherPaymentService.receive] at result
        split at result
        · cases result
          exact Nat.le_refl _
        · simp only [bind_eq_ok, checkedAdd_eq_ok] at result
          obtain ⟨balance, ⟨-, rfl⟩, result⟩ := result
          cases result
          apply balance_update
          rintro rfl
          exact Nat.le_add_right _ _
    | unlock sender timestamp =>
        simp only [BatcherPaymentService.unlock, bind_eq_ok, revertIf_eq_ok] at result
        obtain ⟨-, -, -, -, time, -, result⟩ := result
        cases result
        apply balance_update
        rintro rfl
        exact Nat.le_refl _
    | lock sender =>
        simp only [BatcherPaymentService.lock, bind_eq_ok, revertIf_eq_ok] at result
        obtain ⟨-, -, -, -, result⟩ := result
        cases result
        apply balance_update
        rintro rfl
        exact Nat.le_refl _
    | withdraw sender amount timestamp =>
        simp only [BatcherPaymentService.withdraw, bind_eq_ok, revertIf_eq_ok] at result
        obtain ⟨-, -, -, -, -, -, -, -, result⟩ := result
        cases result
        apply balance_update
        intro same
        exact absurd same within
    | setPaused paused =>
        cases result
        exact Nat.le_refl _
  · cases ran

/-- What a step takes from the balance of a user was offered by entries that
it charges. -/
theorem Change.balance_le (submitted : Submitted system.shared) (calls : CallsMatch system.shared)
    (within : ChargesWithin user system label)
    (change : Change environment config system label after) :
    offeredBy user system.shared.chain.charged + system.shared.chain.userBalance user ≤
      offeredBy user after.chain.charged + after.chain.userBalance user := by
  cases change with
  | evict running full found removed =>
      obtain ⟨userStates, cells, rfl⟩ := Shared.evict_eq_ok removed
      exact Nat.le_refl _
  | evictPanics running full found removed =>
      obtain ⟨userStates, cells, rfl⟩ := Shared.evict_eq_error removed
      exact Nat.le_refl _
  | @extract layout gasPrice blockNumber idle =>
      rcases Shared.extract_cases environment config layout
        (gasPrice * gasPricePercentageMultiplier / percentageDivider) blockNumber system.shared
        with ⟨rest, -, equation⟩ | ⟨entries, rest, -, equation⟩
      · rw [equation]
      · rw [equation]
  | @updateUser layout address batch users current member free =>
      obtain ⟨cells, equation⟩ := Shared.updateUser_eq layout address system.shared
      rw [equation]
      exact Nat.le_refl _
  | @updateRestoredUser layout address batch users current member free =>
      obtain ⟨cells, equation⟩ := Shared.updateUser_eq layout address system.shared
      rw [equation]
      exact Nat.le_refl _
  | @cleanupUser layout address batch users current free =>
      obtain ⟨cells, equation⟩ := Shared.cleanupUser_eq layout address system.shared
      rw [equation]
      exact Nat.le_refl _
  | restore current ran =>
      obtain ⟨queue, users, lost, rfl, -⟩ := Shared.restore_eq_some ran
      exact Nat.le_refl _
  | @flushAndReset label origin stage labelled flushing =>
      rw [Shared.afterFlush_chain]
      exact Nat.le_refl _
  | @insertNonpaying origin address nonce flushing configured =>
      rw [Shared.afterFlush_chain]
      exact Nat.le_refl _
  | mine mined =>
      obtain ⟨transaction, member, -, -, -, result⟩ := Chain.mine_eq_some mined
      obtain ⟨batch, stage, current, -, entries, call, -, -⟩ :=
        submitted.owner transaction member
      rcases result with ⟨service, manager, executed, sameService, included⟩ |
        ⟨sameService, included⟩
      · have covered := Shared.OfBatch.current within current
        have taken := fee_mul_count_le_offeredBy covered user
        rw [call] at executed
        obtain ⟨charged, -⟩ := BatcherPaymentService.createNewTask_ok executed
        obtain ⟨enough, afterUser⟩ := BatcherPaymentService.decreaseUserBalances_ok charged user
        rw [calls batch stage current] at enough afterUser
        rw [Chain.charged_append included, if_pos rfl, entries, offeredBy_append]
        simp only [Chain.userBalance, BatcherPaymentService.userBalances, sameService, afterUser,
          BatcherPaymentService.UserInfo.charged]
        omega
      · rw [Chain.charged_append included]
        simp [Chain.userBalance, sameService]
  | userCall called =>
      have kept := Chain.userCall_balance within called
      rw [Chain.userCall_eq_some called] at kept ⊢
      exact Nat.add_le_add_left kept _
  | _ => exact Nat.le_refl _

/-! ## Users that stay funded -/

/-- The user state a handler has validated its message against. -/
def Phase.admitted : Phase → Option Ref
  | .verifyProof userStateRef _ | .enqueue userStateRef _ | .replace userStateRef _ =>
      some userStateRef
  | _ => none

/-- A handler comes to an admitted phase from another one, or by reading a
balance that covers the total and the new fee. -/
theorem step_admitted {task : TaskId} {request : Request} {phase : Phase} {ref : Ref}
    (stepped : (batcher environment config).step system label = some next)
    (own : label.task? = some task) (running : next.handlers task = some (request, phase))
    (admitted : phase.admitted = some ref) :
    next.shared = system.shared ∧
      ((∃ earlier, system.handlers task = some (request, earlier) ∧
          earlier.admitted = some ref) ∨
        (system.shared.cells ref).totalFeesInQueue + request.noncedVerificationData.maxFee ≤
          system.shared.chain.userBalance request.addr) := by
  cases label
  all_goals simp only [Label.task?, Option.some.injEq, reduceCtorEq] at own
  all_goals subst own
  case readBalance =>
    simp only [batcher, System.readBalance] at stepped
    split at stepped
    · rename_i request ref before
      repeat' split at stepped
      all_goals cases stepped
      all_goals simp only [System.goto, System.reject, System.finish, Function.update_self,
        Option.some.injEq, Prod.mk.injEq, reduceCtorEq] at running
      · obtain ⟨rfl, rfl⟩ := running
        cases admitted
        exact ⟨rfl, .inr (by omega)⟩
      · obtain ⟨rfl, rfl⟩ := running
        cases admitted
        exact ⟨rfl, .inr (by omega)⟩
    · cases stepped
  case verifyProof =>
    simp only [batcher, System.verifyProof] at stepped
    split at stepped
    · rename_i request ref balance before
      repeat' split at stepped
      all_goals cases stepped
      all_goals simp only [System.goto, System.reject, System.finish, Function.update_self,
        Option.some.injEq, Prod.mk.injEq, reduceCtorEq] at running
      obtain ⟨rfl, rfl⟩ := running
      cases admitted
      exact ⟨rfl, .inl ⟨_, before, rfl⟩⟩
    · cases stepped
  case receive =>
    simp only [batcher, System.receive] at stepped
    repeat' split at stepped
    all_goals cases stepped
    all_goals simp_all [System.reply, System.goto]
    obtain ⟨-, rfl⟩ := running
    cases admitted
  all_goals
    simp only [batcher, System.checkLocked, System.checkUser, System.fetchNonce,
      System.insertUser, System.getUser, System.lockUser, System.enqueue, System.replace,
      System.timeout] at stepped
    repeat' split at stepped
  all_goals cases stepped
  all_goals simp only [System.goto, System.reject, System.finish, System.withShared,
    Function.update_self, Option.some.injEq, Prod.mk.injEq, reduceCtorEq] at running
  all_goals
    obtain ⟨-, rfl⟩ := running
    cases admitted

/-- The balance of the user covers what it has waiting, and what a handler
that holds its current state is about to add. -/
structure Funded (user : Address) (system : System) : Prop where
  balance : offeredBy user system.shared.waiting ≤ system.shared.chain.userBalance user
  handlers : ∀ task request phase ref, system.handlers task = some (request, phase) →
    phase.admitted = some ref → request.addr = user →
    system.shared.userStates user = some ref →
    offeredBy user system.shared.waiting + request.noncedVerificationData.maxFee ≤
      system.shared.chain.userBalance user

/-- What holds in a run that uses current user states only. -/
structure TotalsCover (system : System) : Prop where
  owned : Owned system
  covers : system.shared.Covers system.shared.live

/-- What holds in such a run without withdrawals by the user. -/
structure CoveredUser (user : Address) (system : System) : Prop extends TotalsCover system where
  waits : FlushWaits system
  submitted : Submitted system.shared
  calls : CallsMatch system.shared
  funded : Funded user system

theorem Owned.admitted_held (owned : Owned system) {task : TaskId} {request : Request}
    {phase : Phase} {ref : Ref} (running : system.handlers task = some (request, phase))
    (admitted : phase.admitted = some ref) :
    ref < system.shared.nextRef ∧ system.locks ref = some task := by
  have relies := owned.relies task request phase running
  cases phase with
  | verifyProof stateRef balance | enqueue stateRef balance | replace stateRef balance =>
      cases admitted
      exact ⟨relies.1, relies.2.1⟩
  | _ => cases admitted

/-- An older cell that is some user's state was it before the step. -/
theorem Change.userStates_before (owned : Owned system)
    (change : Change environment config system label after) {address : Address} {ref : Ref}
    (found : after.userStates address = some ref) (bound : ref < system.shared.nextRef) :
    system.shared.userStates address = some ref := by
  rcases change.keeps_or_creates owned with keeps | ⟨created, nonce, keeps⟩
  · exact keeps.users address ref found
  · have present := keeps.users address ref found
    by_cases same : address = created
    · subst same
      simp only [Shared.createUser, Function.update_self, Option.some.injEq] at present
      exact absurd present (Nat.ne_of_gt bound)
    · simpa [Shared.createUser, Function.update_of_ne same] using present

/-- A proof the step adds for a sender is added with its current user state,
whose lock is held. -/
theorem System.Offers.current {entry : BatchQueueEntry} (offers : system.Offers label entry)
    (guarded : UsesCurrentUsers config system label) :
    ∃ task request phase ref, label.task? = some task ∧
      system.handlers task = some (request, phase) ∧ phase.admitted = some ref ∧
      entry.sender = request.addr ∧ entry.maxFee = request.noncedVerificationData.maxFee ∧
      system.shared.userStates request.addr = some ref := by
  obtain ⟨task, request, ref, balance, handled, sender, fee⟩ := offers
  rcases handled with ⟨⟨layout, rfl⟩, running⟩ | ⟨⟨verifier, rfl⟩, running⟩
  · have found := System.When.running guarded running rfl
    exact ⟨task, request, _, ref, rfl, running, rfl, sender, fee, found⟩
  · have found := System.When.running guarded running rfl
    exact ⟨task, request, _, ref, rfl, running, rfl, sender, fee, found⟩

/-- What is added and taken from the balance is balanced by what is charged. -/
private theorem waiting_slack {added settled lost dropped : List BatchQueueEntry}
    (submitted : Submitted system.shared) (calls : CallsMatch system.shared)
    (within : ChargesWithin user system label)
    (change : Change environment config system label after)
    (flow : Flow environment config system label after added settled lost dropped) :
    offeredBy user after.waiting + system.shared.chain.userBalance user ≤
      offeredBy user added + offeredBy user system.shared.waiting +
        after.chain.userBalance user := by
  have conserved := @offeredBy_perm user _ _ flow.transfer.conserves
  have spent := change.balance_le submitted calls within
  rw [flow.charged] at spent
  simp only [offeredBy_append] at conserved spent
  omega

theorem funded_step (covered : CoveredUser user system)
    (final : ErrorsAreFinal system label) (current : UsesCurrentUsers config system label)
    (within : ChargesWithin user system label)
    (stepped : (batcher environment config).step system label = some next) :
    Funded user next := by
  have change := step_change stepped
  obtain ⟨added, settled, lost, dropped, flow⟩ :=
    change.flow covered.waits covered.submitted final
  have slack := waiting_slack covered.submitted covered.calls within change flow
  constructor
  · have funded := covered.funded.balance
    by_cases someone : ∃ entry ∈ added, entry.sender = user
    · obtain ⟨entry, member, sender⟩ := someone
      obtain ⟨task, request, phase, ref, -, running, admitted, addr, fee, found⟩ :=
        (flow.offered entry member).current current
      have only : added = [entry] := by
        obtain ⟨single, alone⟩ := List.length_eq_one_iff.mp
          (Nat.le_antisymm flow.single (List.length_pos_of_mem member))
        rw [alone, List.mem_singleton] at member
        rw [alone, member]
      have same : request.addr = user := addr.symm.trans sender
      have enough := covered.funded.handlers task request phase ref running admitted same
        (same ▸ found)
      rw [only, offeredBy_cons, if_pos sender, offeredBy_nil, fee] at slack
      omega
    · have nothing : offeredBy user added = 0 := by
        apply offeredBy_eq_zero
        intro entry member sender
        exact someone ⟨entry, member, sender⟩
      omega
  · intro task request phase ref running admitted same found
    by_cases own : label.task? = some task
    · obtain ⟨sameShared, ⟨earlier, before, earlierAdmitted⟩ | read⟩ :=
        step_admitted stepped own running admitted
      · rw [sameShared] at found ⊢
        exact covered.funded.handlers task request earlier ref before earlierAdmitted same found
      · rw [sameShared] at found ⊢
        have total := covered.covers user ref found
        have fewer := @offeredBy_waiting_le_live user system.shared
        rw [same] at read
        omega
    · rw [(step_sameOthers stepped task own).1] at running
      obtain ⟨bound, held⟩ := covered.owned.admitted_held running admitted
      have before := change.userStates_before covered.owned found bound
      have enough := covered.funded.handlers task request phase ref running admitted same before
      have nothing : offeredBy user added = 0 := by
        apply offeredBy_eq_zero
        intro entry member sender
        obtain ⟨acting, other, otherPhase, otherRef, acts, otherRunning, otherAdmitted, addr, -,
          otherFound⟩ := (flow.offered entry member).current current
        rw [← addr, sender, before, Option.some.injEq] at otherFound
        have otherHeld := (covered.owned.admitted_held otherRunning otherAdmitted).2
        rw [← otherFound, held, Option.some.injEq] at otherHeld
        exact own (otherHeld ▸ acts)
      omega

/-! ## Runs -/

/-- The condition on a step under which a covered user stays covered. -/
def StaysCovered (user : Address) (system : System) (label : Label) : Prop :=
  ErrorsAreFinal system label ∧ ChargesWithin user system label

instance (user : Address) (system : System) (label : Label) :
    Decidable (StaysCovered user system label) :=
  inferInstanceAs (Decidable (_ ∧ _))

theorem totalsCover_step (cover : TotalsCover system)
    (current : UsesCurrentUsers config system label)
    (stepped : (batcher environment config).step system label = some next) :
    TotalsCover next where
  owned := owned_step cover.owned stepped
  covers := (step_change stepped).covers cover.owned cover.covers current

theorem coveredUser_step (covered : CoveredUser user system)
    (current : UsesCurrentUsers config system label) (stays : StaysCovered user system label)
    (stepped : (batcher environment config).step system label = some next) :
    CoveredUser user next where
  toTotalsCover := totalsCover_step covered.toTotalsCover current stepped
  waits := flushWaits_step covered.waits stepped
  submitted := (step_change stepped).submitted covered.waits covered.submitted stays.1
  calls := (step_change stepped).callsMatch covered.calls
  funded := funded_step covered stays.1 current stays.2 stepped

theorem totalsCover_initial (config : Config) (chain : Chain)
    (disabledVerifiers lastUploadedBatchBlock : Nat) :
    TotalsCover (initialSystem config chain disabledVerifiers lastUploadedBatchBlock) := by
  refine ⟨owned_initial _ _ _ _, ?_⟩
  obtain ⟨userStates, cells, nextRef, equation⟩ := Shared.initial_eq config chain
  have nothing : (Shared.initial config chain).live = [] := by
    rw [equation]
    rfl
  intro address ref _
  simp only [initialSystem]
  rw [nothing]
  exact Nat.zero_le _

theorem coveredUser_initial {chain : Chain} (fresh : chain.Fresh)
    (disabledVerifiers lastUploadedBatchBlock : Nat) :
    CoveredUser user (initialSystem config chain disabledVerifiers lastUploadedBatchBlock) := by
  have nothing := Shared.waiting_initial config chain
  refine ⟨totalsCover_initial _ _ _ _, ?_, submitted_initial fresh, ?_, ?_⟩
  · intro stage flushing
    cases flushing
  · obtain ⟨userStates, cells, nextRef, equation⟩ := Shared.initial_eq config chain
    intro batch stage current
    simp only [initialSystem] at current
    rw [equation] at current
    cases current
  · constructor
    · simp [initialSystem, nothing]
    · intro task request phase ref running
      cases running

/-- A proof that is added is covered, together with everything its user has, by
the balance its handler read. -/
theorem Change.enqueued_covered (owned : Owned system)
    (covers : system.shared.Covers system.shared.live) {task : TaskId} {layout : QueueLayout}
    (guarded : UsesCurrentUsers config system (.enqueue task layout))
    (change : Change environment config system (.enqueue task layout) after)
    {request : Request} {ref : Ref} {balance : Nat}
    (running : system.handlers task = some (request, .enqueue ref balance))
    (accepted : after.accepted ≠ system.shared.accepted) :
    offeredBy request.addr after.live ≤ balance := by
  have kept := change.covers owned covers guarded
  have current := System.When.running guarded running rfl
  have admits := (owned.relies task request _ running).2.2
  have covered := admits.covered
  cases change with
  | enqueue runs room =>
      rw [running] at runs
      simp only [Option.some.injEq, Prod.mk.injEq, Phase.enqueue.injEq] at runs
      obtain ⟨rfl, rfl, rfl⟩ := runs
      have total := kept request.addr ref current
      simp only [Shared.acceptEntry, Function.update_self, UserState.addEntry] at total
      exact total.trans covered
  | @evict _ _ _ _ evictedRef _ target evicted runs full found removed =>
      rw [running] at runs
      simp only [Option.some.injEq, Prod.mk.injEq, Phase.enqueue.injEq] at runs
      obtain ⟨rfl, rfl, rfl⟩ := runs
      have users := Shared.evict_users layout evictedRef system.shared
        (owned.evicts_other running current found)
      have different : ref ≠ evictedRef := by
        rintro rfl
        have held := (owned.relies task request _ running).2.1
        rw [(Shared.evictionTarget_eq_some found).2.1] at held
        cases held
      have keeps : Shared.Keeps (· ≠ evictedRef) system.shared
          (Shared.left (system.shared.evict layout evictedRef target)) :=
        Shared.evict_keeps _ _ _ _ fun touched => touched rfl
      rw [removed] at users keeps
      have total := kept request.addr ref (users.trans current)
      simp only [Shared.acceptEntry, Function.update_self, UserState.addEntry] at total
      rw [show evicted.cells ref = system.shared.cells ref from keeps.cells ref different] at total
      exact total.trans covered
  | evictPanics runs full found removed =>
      obtain ⟨userStates, cells, rfl⟩ := Shared.evict_eq_error removed
      exact absurd rfl accepted
  | flushAndReset labelled flushing => cases labelled
  | _ => exact absurd rfl accepted

/-- The same for a replacement. -/
theorem Change.replaced_covered (owned : Owned system)
    (covers : system.shared.Covers system.shared.live) {task : TaskId}
    {verifier : VerifierCall → Bool}
    (guarded : UsesCurrentUsers config system (.replace task verifier))
    (change : Change environment config system (.replace task verifier) after)
    {request : Request} {ref : Ref} {balance : Nat}
    (running : system.handlers task = some (request, .replace ref balance))
    (accepted : after.accepted ≠ system.shared.accepted) :
    offeredBy request.addr after.live ≤ balance := by
  have kept := change.covers owned covers guarded
  have current := System.When.running guarded running rfl
  have covered := (owned.relies task request _ running).2.2
  cases change with
  | @replace _ _ _ _ _ original runs stored bumped valid =>
      rw [running] at runs
      simp only [Option.some.injEq, Prod.mk.injEq, Phase.replace.injEq] at runs
      obtain ⟨rfl, rfl, rfl⟩ := runs
      have total := kept request.addr ref current
      simp only [Shared.replaceEntry, Shared.notify, Function.update_self,
        UserState.replaceEntry] at total
      have grown : (system.shared.cells ref).totalFeesInQueue +
          ((System.replacementEntry environment request original).maxFee - original.maxFee) ≤
            balance := by
        apply Nat.le_trans ?_ covered
        exact Nat.add_le_add_left (Nat.sub_le _ _) _
      exact total.trans grown
  | flushAndReset labelled flushing => cases labelled
  | _ => exact absurd rfl accepted

/-- In every run whose steps meet `UsesCurrentUsers`, the balance read for an
accepted proof covers everything its user then has queued or in flight.  If
moreover the steps meet `StaysCovered` for a user, then no batch in flight that
costs its entries at most their `max_fee` reverts because this user cannot
pay. -/
theorem balance_covers_accepted (environment : Environment) (config : Config) (chain : Chain)
    (fresh : chain.Fresh) (disabledVerifiers lastUploadedBatchBlock : Nat)
    (labels : List Label) (finish : System)
    (meets : (batcher environment config).Meets (UsesCurrentUsers config)
      (initialSystem config chain disabledVerifiers lastUploadedBatchBlock) labels)
    (ran : (batcher environment config).run
      (initialSystem config chain disabledVerifiers lastUploadedBatchBlock) labels =
        some finish) :
    (∀ task request ref balance label next,
      (finish.handlers task = some (request, .enqueue ref balance) ∧
          ∃ layout, label = .enqueue task layout) ∨
        (finish.handlers task = some (request, .replace ref balance) ∧
          ∃ verifier, label = .replace task verifier) →
      UsesCurrentUsers config finish label →
      (batcher environment config).step finish label = some next →
      next.shared.accepted ≠ finish.shared.accepted →
      offeredBy request.addr next.shared.live ≤ balance) ∧
    ∀ user, (batcher environment config).Meets (StaysCovered user)
        (initialSystem config chain disabledVerifiers lastUploadedBatchBlock) labels →
      ∀ batch stage blockNumber balance required,
        finish.shared.batch = some (batch, stage) → stage.isOpen = true →
        finish.shared.chain.isMined batch.number = false →
        (∀ entry ∈ batch.entries, batch.call.feePerProof ≤ entry.maxFee) →
        finish.shared.chain.createNewTask environment config blockNumber batch.call ≠
          .error (.submissionInsufficientBalance user balance required) := by
  constructor
  · have cover : TotalsCover finish := by
      refine Machine.run_preserves ?_ (totalsCover_initial _ _ _ _) meets ran
      intro state next label invariant guarded stepped
      exact totalsCover_step invariant guarded stepped
    intro task request ref balance label next handled guarded stepped accepted
    rcases handled with ⟨running, layout, rfl⟩ | ⟨running, verifier, rfl⟩
    · exact (step_change stepped).enqueued_covered cover.owned cover.covers guarded running accepted
    · exact (step_change stepped).replaced_covered cover.owned cover.covers guarded running accepted
  · intro user stays batch stage blockNumber balance required current isOpen notMined within
    have covered : CoveredUser user finish := by
      refine Machine.run_preserves ?_ (coveredUser_initial fresh _ _) (meets.and stays) ran
      intro state next label invariant guarded stepped
      exact coveredUser_step invariant guarded.1 guarded.2 stepped
    apply BatcherPaymentService.createNewTask_ne_insufficient
    rw [covered.calls batch stage current]
    calc batch.call.feePerProof * (batch.entries.map BatchQueueEntry.sender).count user
        ≤ offeredBy user batch.entries := fee_mul_count_le_offeredBy within user
      _ ≤ offeredBy user finish.shared.waiting := by
        rw [Shared.waiting, offeredBy_append, Shared.unmined_of_open current isOpen notMined]
        exact Nat.le_add_left _ _
      _ ≤ finish.shared.chain.userBalance user := covered.funded.balance

/-- A user has one proof in flight, and is about to add another one. -/
def Sample.secondProof : List Label :=
  firstProof 0 1 0 1000000 ++ [.extract layout 1 1] ++ findUser 1 1 1 900000 ++
    [.readBalance 1 true, .verifyProof 1 fun _ => true]

theorem balance_covers_accepted_secondProof :
    ∃ finish request next, (batcher Sample.environment (Sample.config 10)).run
        (Sample.system 10 2000000) Sample.secondProof = some finish ∧
      finish.handlers 1 = some (request, .enqueue 0 2000000) ∧
      (batcher Sample.environment (Sample.config 10)).step finish (.enqueue 1 Sample.layout) =
        some next ∧
      offeredBy request.addr next.shared.live ≤ 2000000 := by
  have found : ((batcher Sample.environment (Sample.config 10)).run
      (Sample.system 10 2000000) Sample.secondProof).any (fun finish =>
        (finish.handlers 1).any (fun running => decide (running.2 = .enqueue 0 2000000)) &&
          decide (UsesCurrentUsers (Sample.config 10) finish (.enqueue 1 Sample.layout)) &&
          ((batcher Sample.environment (Sample.config 10)).step finish
            (.enqueue 1 Sample.layout)).any (fun next =>
              decide (next.shared.accepted ≠ finish.shared.accepted))) = true := by
    decide +kernel
  obtain ⟨finish, ran, facts⟩ := (Option.any_eq_true _ _).mp found
  simp only [Bool.and_eq_true, decide_eq_true_eq, Option.any_eq_true] at facts
  obtain ⟨⟨⟨⟨request, phase⟩, running, rfl⟩, current⟩, next, stepped, accepted⟩ := facts
  refine ⟨finish, request, next, ran, running, stepped, ?_⟩
  exact (balance_covers_accepted _ _ _ ⟨rfl, rfl⟩ _ _ _ _ (by decide +kernel) ran).1 1 request 0
    2000000 _ next (.inl ⟨running, _, rfl⟩) current stepped accepted

/-- The queue is flushed while a batch is in flight, and its user submits the
same nonce again. -/
def Sample.flushedInFlight : List Label :=
  firstProof 0 1 0 127000 ++
    [.extract layout 1 1, .setDisabledVerifiers 1, .startFlush .disabledVerifiers, .clearQueue] ++
    createUser 1 1 0 127000 ++ [.readBalance 1 true, .verifyProof 1 fun _ => true]

/-- Both batches are then sent, one after the other. -/
def Sample.sentBoth : List Label :=
  [.finalize, .simulate true 1, .send .accepted] ++ closeBatch 0 [1] ++
    [.extract layout 1 2, .finalize]

theorem accepted_beyond_balance :
    ∃ finish next last, (batcher Sample.environment (Sample.config 10)).run
        (Sample.system 10 200000) Sample.flushedInFlight = some finish ∧
      (∃ request ref, finish.handlers 1 = some (request, .enqueue ref 200000)) ∧
      (batcher Sample.environment (Sample.config 10)).step finish (.enqueue 1 Sample.layout) =
        some next ∧
      next.shared.accepted ≠ finish.shared.accepted ∧
      200000 < offeredBy 1 next.shared.live ∧
      (batcher Sample.environment (Sample.config 10)).run next Sample.sentBoth = some last ∧
      ∃ batch stage, last.shared.batch = some (batch, stage) ∧
        (last.shared.chain.createNewTask Sample.environment (Sample.config 10) 2 batch.call).map
          (fun _ => ()) = .error (.submissionInsufficientBalance 1 73000 127000) := by
  have found : ((batcher Sample.environment (Sample.config 10)).run
      (Sample.system 10 200000) Sample.flushedInFlight).any (fun finish =>
        (finish.handlers 1).any (fun running => decide (running.2 = .enqueue 1 200000)) &&
        ((batcher Sample.environment (Sample.config 10)).step finish
          (.enqueue 1 Sample.layout)).any (fun next =>
            decide (next.shared.accepted ≠ finish.shared.accepted) &&
            decide (200000 < offeredBy 1 next.shared.live) &&
            ((batcher Sample.environment (Sample.config 10)).run next Sample.sentBoth).any
              (fun last => last.shared.batch.any fun work => decide (
                (last.shared.chain.createNewTask Sample.environment (Sample.config 10) 2
                  work.1.call).map (fun _ => ()) =
                    .error (.submissionInsufficientBalance 1 73000 127000))))) = true := by
    decide +kernel
  obtain ⟨finish, ran, facts⟩ := (Option.any_eq_true _ _).mp found
  simp only [Bool.and_eq_true, decide_eq_true_eq, Option.any_eq_true] at facts
  obtain ⟨⟨⟨request, phase⟩, running, rfl⟩, next, stepped, ⟨accepted, beyond⟩, last, sent,
    ⟨batch, stage⟩, current, reverted⟩ := facts
  exact ⟨finish, next, last, ran, ⟨request, 1, running⟩, stepped, accepted, beyond, sent, batch,
    stage, current, reverted⟩

end AlignedLayer
