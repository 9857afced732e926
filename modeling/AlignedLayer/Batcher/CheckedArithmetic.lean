import AlignedLayer.Batcher.Admission
import AlignedLayer.Batcher.Replacements

/-!
# The arithmetic of the message handlers

Every operation of `U256` is checked and panics outside its range.  A handler
adds a fee that the client chose before it compares the sum with the balance.
-/

namespace AlignedLayer

/-- An operation of `U256`. -/
inductive CheckedOp where
  | add (left right : Nat)
  | sub (left right : Nat)
  | mul (left right : Nat)
  deriving DecidableEq

def CheckedOp.InRange : CheckedOp → Prop
  | .add left right => left + right ≤ u256Max
  | .sub left right => right ≤ left
  | .mul left right => left * right ≤ u256Max

instance : DecidablePred CheckedOp.InRange
  | .add _ _ => inferInstanceAs (Decidable (_ ≤ _))
  | .sub _ _ => inferInstanceAs (Decidable (_ ≤ _))
  | .mul _ _ => inferInstanceAs (Decidable (_ ≤ _))

/-! ## The operations of a step -/

namespace System

section Operations

variable (environment : Environment) (config : Config) (system : System)

/-- `verify_user_has_enough_balance`. -/
def balanceOperations (request : Request) (ref : Ref) : List CheckedOp :=
  [.add (system.shared.cells ref).totalFeesInQueue request.noncedVerificationData.maxFee]

/-- `update_evicted_user_state_with_lock`, for a user with another entry. -/
def evictionOperations (layout : QueueLayout) (evictedRef : Ref) (target : BatchQueueEntry) :
    List CheckedOp :=
  match Shared.lastEntryOf layout (system.shared.batchQueue.erase target.key) target.sender with
  | none => []
  | some _ =>
      [.sub (system.shared.cells evictedRef).nonce 1,
        .sub (system.shared.cells evictedRef).totalFeesInQueue target.maxFee]

/-- The update of the user state at the end of `handle_submit_proof_msg`. -/
def addOperations (request : Request) (ref : Ref) : List CheckedOp :=
  [.add request.noncedVerificationData.nonce 1,
    .add (system.shared.cells ref).totalFeesInQueue request.noncedVerificationData.maxFee]

def enqueueOperations (layout : QueueLayout) (request : Request) (ref : Ref) :
    List CheckedOp :=
  if BatchState.isQueueFull config.maxQueueSize system.shared.batchQueue then
    match system.shared.evictionTarget layout system.locks
        request.noncedVerificationData.maxFee with
    | none => []
    | some (evictedRef, target) =>
        system.evictionOperations layout evictedRef target ++ system.addOperations request ref
  else
    system.addOperations request ref

/-- `min_bump`, and the update of the user state if the entry is replaced. -/
def replaceOperations (verifier : VerifierCall → Bool) (request : Request) (ref : Ref) :
    List CheckedOp :=
  match system.storedEntry request with
  | none => []
  | some original =>
      [.mul original.maxFee config.minBumpPercentage,
        .add original.maxFee (original.maxFee * config.minBumpPercentage / 100)] ++
      if config.minBump original ≤ request.noncedVerificationData.maxFee ∧
          proofRefusal config verifier request.noncedVerificationData.verificationData system =
            none ∧
          BatchState.replacementEntryIsValid system.shared.batchQueue
            (replacementEntry environment request original) = true then
        [.sub request.noncedVerificationData.maxFee original.maxFee,
          .add (system.shared.cells ref).totalFeesInQueue
            (request.noncedVerificationData.maxFee - original.maxFee)]
      else
        []

/-- The operations a message handler performs in a step, in their order. -/
def operations : Label → List CheckedOp
  | .readBalance task true =>
      match system.handlers task with
      | some (request, .readBalance ref) => system.balanceOperations request ref
      | _ => []
  | .enqueue task layout =>
      match system.handlers task with
      | some (request, .enqueue ref _) => system.enqueueOperations config layout request ref
      | _ => []
  | .replace task verifier =>
      match system.handlers task with
      | some (request, .replace ref _) =>
          system.replaceOperations environment config verifier request ref
      | _ => []
  | _ => []

end Operations

/-- The handler is gone, although it neither answered nor accepted the proof. -/
structure Panicked (system : System) (task : TaskId) (next : System) : Prop where
  running : (system.handlers task).isSome = true
  ended : next.handlers task = none
  unanswered : next.replies = system.replies
  unaccepted : next.shared.accepted = system.shared.accepted

end System

/-! ## The condition on a step -/

namespace Phase

/-- The user state of a handler that is about to check the balance. -/
def reading : Phase → Option Ref
  | .readBalance userStateRef => some userStateRef
  | _ => none

/-- The balance the handler has read. -/
def userBalance : Phase → Option Nat
  | .verifyProof _ userBalance => some userBalance
  | .enqueue _ userBalance => some userBalance
  | .replace _ userBalance => some userBalance
  | _ => none

end Phase

/-- The counters of the user of an entry that may be evicted cover it, if the
user has another entry. -/
def System.CoversSiblings (system : System) (entry : BatchQueueEntry) (evictedRef : Ref) : Prop :=
  (∃ other ∈ system.shared.batchQueue.items,
    other.sender = entry.sender ∧ other.nonce ≠ entry.nonce) →
  0 < (system.shared.cells evictedRef).nonce ∧
    entry.maxFee ≤ (system.shared.cells evictedRef).totalFeesInQueue

instance (system : System) (entry : BatchQueueEntry) (evictedRef : Ref) :
    Decidable (system.CoversSiblings entry evictedRef) :=
  inferInstanceAs (Decidable (_ → _))

/-- What the fees and counters have to satisfy before a handler's step.  The
balance that is read is a `U256` of the contract. -/
def StaysInRange (config : Config) (system : System) : Label → Prop
  | .readBalance task true => system.When Phase.reading (fun request ref =>
      (system.shared.cells ref).totalFeesInQueue + request.noncedVerificationData.maxFee ≤
          u256Max ∧
        system.shared.chain.userBalance request.addr ≤ u256Max) task
  | .enqueue task _ => system.When Phase.enqueuing (fun request _ =>
      if BatchState.isQueueFull config.maxQueueSize system.shared.batchQueue = true then
        ∀ entry ∈ system.shared.batchQueue.items,
          entry.maxFee < request.noncedVerificationData.maxFee →
          ∀ evictedRef ∈ system.shared.userStates entry.sender,
            system.locks evictedRef = none →
            request.noncedVerificationData.nonce < u256Max ∧
              system.CoversSiblings entry evictedRef
      else
        request.noncedVerificationData.nonce < u256Max) task
  | .replace task _ => system.When Phase.replacing (fun request _ =>
      ∀ original ∈ system.storedEntry request, ¬ config.BumpOverflows original) task
  | _ => True

instance (config : Config) (system : System) (label : Label) :
    Decidable (StaysInRange config system label) := by
  apply @Label.casesOn (fun label => Decidable (StaysInRange config system label)) label
  case readBalance =>
    intro task answered
    cases answered with
    | false => exact .isTrue trivial
    | true =>
        dsimp only [StaysInRange]
        infer_instance
  all_goals intros
  all_goals dsimp only [StaysInRange]
  all_goals infer_instance

/-! ## The balances that handlers have read -/

section Balances

variable {environment : Environment} {config : Config} {system next : System} {label : Label}

def BalancesFit (system : System) : Prop :=
  ∀ task request phase, system.handlers task = some (request, phase) →
    ∀ balance, phase.userBalance = some balance → balance ≤ u256Max

/-- A handler reads a balance of the contract, or goes on with the one it has. -/
theorem balancesFit_own {task : TaskId} {request : Request} {phase : Phase} {balance : Nat}
    (fit : BalancesFit system) (guarded : StaysInRange config system label)
    (stepped : (batcher environment config).step system label = some next)
    (own : label.task? = some task) (running : next.handlers task = some (request, phase))
    (hasRead : phase.userBalance = some balance) : balance ≤ u256Max := by
  cases label
  all_goals simp only [Label.task?, Option.some.injEq, reduceCtorEq] at own
  all_goals subst own
  case readBalance answered =>
    simp only [batcher, System.readBalance] at stepped
    split at stepped
    · next asked ref before =>
        cases answered with
        | false =>
            cases stepped
            simp only [System.reject, System.finish, Function.update_self, reduceCtorEq] at running
        | true =>
            have typed := (System.When.running guarded before rfl).2
            repeat' split at stepped
            all_goals cases stepped
            all_goals simp only [System.goto, System.reject, System.finish, Function.update_self,
              Option.some.injEq, Prod.mk.injEq, reduceCtorEq] at running
            all_goals
              obtain ⟨rfl, rfl⟩ := running
              cases hasRead
              exact typed
    · cases stepped
  case verifyProof =>
    simp only [batcher, System.verifyProof] at stepped
    split at stepped
    · next before =>
        repeat' split at stepped
        all_goals cases stepped
        all_goals simp only [System.goto, System.reject, System.finish, Function.update_self,
          Option.some.injEq, Prod.mk.injEq, reduceCtorEq] at running
        obtain ⟨rfl, rfl⟩ := running
        exact fit _ _ _ before _ hasRead
    · cases stepped
  case receive =>
    simp only [batcher, System.receive] at stepped
    repeat' split at stepped
    all_goals cases stepped
    all_goals simp_all [System.reply, System.goto]
    obtain ⟨-, rfl⟩ := running
    cases hasRead
  all_goals
    simp only [batcher, System.checkLocked, System.checkUser, System.fetchNonce,
      System.insertUser, System.getUser, System.lockUser, System.enqueue, System.replace,
      System.timeout] at stepped
    repeat' split at stepped
  all_goals cases stepped
  all_goals simp only [System.goto, System.reject, System.finish, Function.update_self,
    Option.some.injEq, Prod.mk.injEq, reduceCtorEq] at running
  all_goals
    obtain ⟨-, rfl⟩ := running
    cases hasRead

theorem balancesFit_step (fit : BalancesFit system) (guarded : StaysInRange config system label)
    (stepped : (batcher environment config).step system label = some next) :
    BalancesFit next := by
  intro task request phase running balance hasRead
  by_cases own : label.task? = some task
  · exact balancesFit_own fit guarded stepped own running hasRead
  · rw [(step_sameOthers stepped task own).1] at running
    exact fit task request phase running balance hasRead

end Balances

/-! ## Every operation stays in range -/

section InRange

variable {environment : Environment} {config : Config} {system next : System} {label : Label}
  {task : TaskId} {request : Request} {ref evictedRef : Ref} {layout : QueueLayout}
  {target last : BatchQueueEntry}

/-- If the evicted user has an entry left, its counters cover the eviction. -/
theorem System.CoversSiblings.covered (covers : system.CoversSiblings target evictedRef)
    (found : Shared.lastEntryOf layout (system.shared.batchQueue.erase target.key) target.sender =
      some last) :
    0 < (system.shared.cells evictedRef).nonce ∧
      target.maxFee ≤ (system.shared.cells evictedRef).totalFeesInQueue := by
  obtain ⟨queued, sender⟩ := Shared.lastEntryOf_eq_some found
  obtain ⟨before, differs⟩ := mem_items_erase.mp queued
  apply covers
  refine ⟨last, before, sender, ?_⟩
  intro nonce
  exact differs (Prod.ext sender nonce)

theorem System.CoversSiblings.evicts (covers : system.CoversSiblings target evictedRef)
    (layout : QueueLayout) : ∃ evicted, system.shared.evict layout evictedRef target = .ok evicted := by
  cases found : Shared.lastEntryOf layout (system.shared.batchQueue.erase target.key)
      target.sender with
  | none =>
      rw [Shared.evict]
      simp only [Shared.updateEvictedUserState, found]
      exact ⟨_, rfl⟩
  | some last =>
      obtain ⟨numbered, paid⟩ := covers.covered found
      exact Shared.evict_ok_of_covered numbered paid

theorem System.evictionOperations_inRange (covers : system.CoversSiblings target evictedRef) :
    ∀ op ∈ system.evictionOperations layout evictedRef target, op.InRange := by
  intro op member
  rw [System.evictionOperations] at member
  split at member
  · cases member
  · next last found =>
      obtain ⟨numbered, paid⟩ := covers.covered found
      simp only [List.mem_cons, List.not_mem_nil, or_false] at member
      rcases member with rfl | rfl
      · exact numbered
      · exact paid

/-- The sum was compared with the balance, and the counters have not changed
since. -/
theorem System.addOperations_inRange {balance : Nat} (owned : Owned system)
    (fit : BalancesFit system)
    (running : system.handlers task = some (request, .enqueue ref balance))
    (numbered : request.noncedVerificationData.nonce < u256Max) :
    ∀ op ∈ system.addOperations request ref, op.InRange := by
  intro op member
  simp only [System.addOperations, List.mem_cons, List.not_mem_nil, or_false] at member
  rcases member with rfl | rfl
  · exact numbered
  · have covered := (owned.relies _ _ _ running).2.2.covered
    exact Nat.le_trans covered (fit _ _ _ running balance rfl)

theorem System.enqueueOperations_inRange {balance : Nat} (owned : Owned system)
    (fit : BalancesFit system)
    (running : system.handlers task = some (request, .enqueue ref balance))
    (guarded : StaysInRange config system (.enqueue task layout)) :
    ∀ op ∈ system.enqueueOperations config layout request ref, op.InRange := by
  have condition := System.When.running guarded running rfl
  intro op member
  rw [System.enqueueOperations] at member
  split at member
  · next full =>
      rw [if_pos full] at condition
      split at member
      · cases member
      · next evictedRef target found =>
          obtain ⟨present, free, ⟨priority, stored⟩, lower⟩ :=
            Shared.evictionTarget_eq_some found
          obtain ⟨numbered, covers⟩ :=
            condition target (mem_items_of_mem stored) lower evictedRef present free
          rcases List.mem_append.mp member with evicting | adding
          · exact System.evictionOperations_inRange covers op evicting
          · exact System.addOperations_inRange owned fit running numbered op adding
  · next room =>
      rw [if_neg room] at condition
      exact System.addOperations_inRange owned fit running condition op member

theorem System.replaceOperations_inRange {verifier : VerifierCall → Bool} {balance : Nat}
    (owned : Owned system) (fit : BalancesFit system)
    (running : system.handlers task = some (request, .replace ref balance))
    (guarded : StaysInRange config system (.replace task verifier)) :
    ∀ op ∈ system.replaceOperations environment config verifier request ref, op.InRange := by
  have condition := System.When.running guarded running rfl
  intro op member
  rw [System.replaceOperations] at member
  split at member
  · cases member
  · next original stored =>
      have inRange := condition original stored
      rw [Config.BumpOverflows, not_or, Nat.not_lt, Nat.not_lt] at inRange
      rcases List.mem_append.mp member with bumping | updating
      · simp only [List.mem_cons, List.not_mem_nil, or_false] at bumping
        rcases bumping with rfl | rfl
        · exact inRange.1
        · exact inRange.2
      · split at updating
        · next passes =>
            have higher := Nat.le_trans (config.le_minBump original) passes.1
            have covered := (owned.relies _ _ _ running).2.2
            have typed := fit _ _ _ running balance rfl
            simp only [List.mem_cons, List.not_mem_nil, or_false] at updating
            rcases updating with rfl | rfl
            · exact higher
            · simp only [CheckedOp.InRange]
              omega
        · cases updating

theorem System.operations_inRange (owned : Owned system) (fit : BalancesFit system)
    (guarded : StaysInRange config system label) :
    ∀ op ∈ system.operations environment config label, op.InRange := by
  intro op member
  cases label
  case readBalance task answered =>
    cases answered with
    | false => cases member
    | true =>
        rw [System.operations] at member
        split at member
        · next request ref running =>
            rw [List.mem_singleton.mp member]
            exact (System.When.running guarded running rfl).1
        · cases member
  case enqueue task layout =>
    rw [System.operations] at member
    split at member
    · next running =>
        exact System.enqueueOperations_inRange owned fit running guarded op member
    · cases member
  case replace task verifier =>
    rw [System.operations] at member
    split at member
    · next running =>
        exact System.replaceOperations_inRange owned fit running guarded op member
    · cases member
  all_goals cases member

end InRange

/-! ## No handler panics -/

section Panics

variable {environment : Environment} {config : Config} {system next : System} {label : Label}
  {task : TaskId} {request : Request} {ref : Ref}

theorem System.not_panicked_goto {phase : Phase} {middle : System} :
    ¬ system.Panicked task (middle.goto task request phase) := by
  intro panicked
  have ended : Function.update middle.handlers task (some (request, phase)) task = none :=
    panicked.ended
  rw [Function.update_self] at ended
  cases ended

theorem System.not_panicked_reject {message : SubmitProofResponseMessage} {middle : System}
    (same : middle.replies = system.replies) :
    ¬ system.Panicked task (middle.reject task request message) := by
  intro panicked
  have answered : middle.replies ++ [(request.wsConnSink, message)] = system.replies :=
    panicked.unanswered
  rw [same] at answered
  cases List.append_right_eq_self.mp answered

theorem System.not_panicked_accept {entry : BatchQueueEntry}
    (accepted : next.shared.accepted = system.shared.accepted ++ [entry]) :
    ¬ system.Panicked task next := by
  intro panicked
  have unaccepted := panicked.unaccepted
  rw [accepted] at unaccepted
  cases List.append_right_eq_self.mp unaccepted

theorem System.enqueue_not_panicked {layout : QueueLayout} {balance : Nat}
    (running : system.handlers task = some (request, .enqueue ref balance))
    (guarded : StaysInRange config system (.enqueue task layout))
    (stepped : system.enqueue environment config task layout = some next) :
    ¬ system.Panicked task next := by
  have condition := System.When.running guarded running rfl
  cases locked : system.flush with
  | some flushing =>
      simp only [System.enqueue, running, locked, Option.isSome_some, if_true,
        reduceCtorEq] at stepped
  | none =>
      cases full : BatchState.isQueueFull config.maxQueueSize system.shared.batchQueue with
      | false =>
          simp only [System.enqueue, running, locked, full, Option.isSome_none,
            Bool.false_eq_true, if_false, Option.some.injEq] at stepped
          subst stepped
          exact System.not_panicked_accept rfl
      | true =>
          rw [if_pos full] at condition
          obtain ⟨reached, enqueued, ends⟩ := @System.enqueue_atFullQueue environment config system
            task layout request ref balance running full locked
          rw [enqueued, Option.some.injEq] at stepped
          subst stepped
          cases ends with
          | rejected nobody => exact System.not_panicked_reject rfl
          | evicted found removed =>
              obtain ⟨userStates, cells, rfl⟩ := Shared.evict_eq_ok removed
              exact System.not_panicked_accept rfl
          | panicked found removed =>
              obtain ⟨present, free, ⟨priority, stored⟩, lower⟩ :=
                Shared.evictionTarget_eq_some found
              obtain ⟨-, covers⟩ := condition _ (mem_items_of_mem stored) lower _ present free
              obtain ⟨evicted, completes⟩ := covers.evicts layout
              rw [completes] at removed
              cases removed

theorem System.replace_not_panicked {verifier : VerifierCall → Bool} {balance : Nat}
    (running : system.handlers task = some (request, .replace ref balance))
    (guarded : StaysInRange config system (.replace task verifier))
    (stepped : system.replace environment config task verifier = some next) :
    ¬ system.Panicked task next := by
  have condition := System.When.running guarded running rfl
  cases System.replace_ends running stepped with
  | notQueued missing => exact System.not_panicked_reject rfl
  | overflows stored overflow => exact absurd overflow (condition _ stored)
  | underpriced stored inRange low => exact System.not_panicked_reject rfl
  | refused stored inRange bumped refusal => exact System.not_panicked_reject rfl
  | invalid passed invalid => exact System.not_panicked_reject rfl
  | replaced passed valid => exact System.not_panicked_accept rfl

theorem System.readBalance_not_panicked {answered : Bool}
    (guarded : StaysInRange config system (.readBalance task answered))
    (stepped : system.readBalance task answered = some next) :
    ¬ system.Panicked task next := by
  rw [System.readBalance] at stepped
  split at stepped
  · next request ref running =>
      cases answered with
      | false =>
          cases stepped
          exact System.not_panicked_reject rfl
      | true =>
          have inRange := (System.When.running guarded running rfl).1
          rw [if_pos rfl] at stepped
          dsimp only at stepped
          rw [if_neg (Nat.not_lt.mpr inRange)] at stepped
          repeat' split at stepped
          all_goals cases stepped
          all_goals first
            | exact System.not_panicked_reject rfl
            | exact System.not_panicked_goto
  · cases stepped

theorem System.step_not_panicked (own : label.task? = some task)
    (guarded : StaysInRange config system label)
    (stepped : (batcher environment config).step system label = some next) :
    ¬ system.Panicked task next := by
  cases label
  all_goals simp only [Label.task?, Option.some.injEq, reduceCtorEq] at own
  all_goals subst own
  case receive =>
    intro panicked
    have running := panicked.running
    simp only [batcher, System.receive, running, if_true, reduceCtorEq] at stepped
  case readBalance => exact System.readBalance_not_panicked guarded stepped
  case enqueue =>
    have enqueued := stepped
    simp only [batcher, System.enqueue] at enqueued
    split at enqueued
    · next running => exact System.enqueue_not_panicked running guarded stepped
    · cases enqueued
  case replace =>
    have replaced := stepped
    simp only [batcher, System.replace] at replaced
    split at replaced
    · next running => exact System.replace_not_panicked running guarded stepped
    · cases replaced
  all_goals
    simp only [batcher, System.checkLocked, System.checkUser, System.fetchNonce,
      System.insertUser, System.getUser, System.lockUser, System.verifyProof,
      System.timeout] at stepped
    repeat' split at stepped
  all_goals cases stepped
  all_goals first
    | exact System.not_panicked_reject rfl
    | exact System.not_panicked_goto

end Panics

/-- In every run whose steps meet the condition, the next step of a handler
that meets it stays in range and does not panic. -/
theorem handlers_stay_in_range (environment : Environment) (config : Config) (chain : Chain)
    (disabledVerifiers lastUploadedBatchBlock : Nat) (labels : List Label) (finish : System)
    (meets : (batcher environment config).Meets (StaysInRange config)
      (initialSystem config chain disabledVerifiers lastUploadedBatchBlock) labels)
    (ran : (batcher environment config).run
      (initialSystem config chain disabledVerifiers lastUploadedBatchBlock) labels = some finish)
    (label : Label) (task : TaskId) (own : label.task? = some task) (next : System)
    (guarded : StaysInRange config finish label)
    (stepped : (batcher environment config).step finish label = some next) :
    (∀ op ∈ finish.operations environment config label, op.InRange) ∧
      ¬ finish.Panicked task next := by
  have owned : Owned finish :=
    Machine.run_invariant owned_step (owned_initial config chain _ _) ran
  have fit : BalancesFit finish := by
    refine Machine.run_preserves ?_ ?_ meets ran
    · intro state next label fit guarded stepped
      exact balancesFit_step fit guarded stepped
    · intro task request phase running
      cases running
  exact ⟨System.operations_inRange owned fit guarded,
    System.step_not_panicked own guarded stepped⟩

namespace Sample

/-- User 1 offers all that a `U256` holds for its second proof. -/
def offersEverything : List Label :=
  firstProof 0 1 0 1000000 ++ findUser 1 1 1 u256Max

end Sample

theorem handlers_stay_in_range_replacing :
    ∃ finish next, (batcher Sample.environment (Sample.config 10)).run
        (Sample.system 10 100000000) Sample.bumpsFee = some finish ∧
      (batcher Sample.environment (Sample.config 10)).step finish (.replace 1 fun _ => true) =
        some next ∧
      (∀ op ∈ finish.operations Sample.environment (Sample.config 10) (.replace 1 fun _ => true),
        op.InRange) ∧
      ¬ finish.Panicked 1 next := by
  have found : ((batcher Sample.environment (Sample.config 10)).run
      (Sample.system 10 100000000) Sample.bumpsFee).any (fun finish =>
        decide (StaysInRange (Sample.config 10) finish (.replace 1 fun _ => true)) &&
          ((batcher Sample.environment (Sample.config 10)).step finish
            (.replace 1 fun _ => true)).isSome) = true := by
    decide +kernel
  obtain ⟨finish, ran, facts⟩ := (Option.any_eq_true _ _).mp found
  rw [Bool.and_eq_true, decide_eq_true_iff] at facts
  obtain ⟨guarded, steps⟩ := facts
  obtain ⟨next, stepped⟩ := Option.isSome_iff_exists.mp steps
  exact ⟨finish, next, ran, stepped,
    handlers_stay_in_range _ _ _ _ _ _ _ (by decide +kernel) ran _ 1 rfl next guarded stepped⟩

/-- The sum leaves the range while the handler holds the lock of its user. -/
theorem balance_sum_overflows :
    ∃ (finish : System) (request : Request) (ref : Ref) (next : System),
      (batcher Sample.environment (Sample.config 10)).run (Sample.system 10 100000000)
        Sample.offersEverything = some finish ∧
      finish.handlers 1 = some (request, .readBalance ref) ∧ finish.locks ref = some 1 ∧
      (batcher Sample.environment (Sample.config 10)).step finish (.readBalance 1 true) =
        some next ∧
      (∃ op ∈ finish.operations Sample.environment (Sample.config 10) (.readBalance 1 true),
        ¬ op.InRange) ∧
      finish.Panicked 1 next := by
  have found : ((batcher Sample.environment (Sample.config 10)).run
      (Sample.system 10 100000000) Sample.offersEverything).any (fun finish =>
        match finish.handlers 1 with
        | some (_, .readBalance ref) =>
            decide (finish.locks ref = some 1 ∧
              ∃ op ∈ finish.operations Sample.environment (Sample.config 10)
                (.readBalance 1 true), ¬ op.InRange) &&
            ((batcher Sample.environment (Sample.config 10)).step finish
              (.readBalance 1 true)).any fun next =>
                (next.handlers 1).isNone && decide (next.replies = finish.replies ∧
                  next.shared.accepted = finish.shared.accepted)
        | _ => false) = true := by
    decide +kernel
  obtain ⟨finish, ran, facts⟩ := (Option.any_eq_true _ _).mp found
  split at facts
  · next request ref running =>
      simp only [Bool.and_eq_true, decide_eq_true_iff, Option.any_eq_true] at facts
      obtain ⟨⟨held, overflow⟩, next, stepped, ended, unanswered, unaccepted⟩ := facts
      exact ⟨finish, request, ref, next, ran, running, held, stepped, overflow,
        by rw [running]; rfl, Option.isNone_iff_eq_none.mp ended, unanswered, unaccepted⟩
  · cases facts

end AlignedLayer
