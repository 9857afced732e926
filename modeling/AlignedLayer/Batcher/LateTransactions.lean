import AlignedLayer.Batcher.Cancellation
import Mathlib.Tactic.Common

/-!
# Transactions that come late

A receipt ends a task for good: no transaction that was sent up to then can be
included later, whichever of them the receipt is for.  Without one, at most
one of those that wait is ever included.  Every bid of a cancellation exceeds
what it has to replace.
-/

namespace AlignedLayer.Cancellation

/-! ## What a step does -/

/-- The steps, one constructor for each way the source can take. -/
inductive Transition (state : State) : Label → State → Prop where
  | start {gasPrice : Nat} (ended : state.phase.isOver = true) :
      Transition state (.start gasPrice)
        { state with batches := state.batches + 1, phase := .creating gasPrice 0 false }
  | sendTask {gasPrice attempt nonce : Nat} {fallback : Bool} {answer : SendAnswer} {phase : Phase}
      (running : state.phase = .creating gasPrice attempt fallback)
      (reached : nonce ≤ state.account.nonce)
      (answered : phase = .awaiting gasPrice state.account.sent.length ∨
        phase = State.afterFailure gasPrice attempt fallback) :
      Transition state (.sendTask answer) ((state.broadcast nonce gasPrice none).goto phase)
  | failTask {gasPrice attempt : Nat} {fallback : Bool} {answer : SendAnswer} {phase : Phase}
      (running : state.phase = .creating gasPrice attempt fallback)
      (answered : phase = .refused ∨ phase = State.afterFailure gasPrice attempt fallback) :
      Transition state (.sendTask answer) (state.goto phase)
  | created {gasPrice position : Nat} (running : state.phase = .awaiting gasPrice position)
      (included : position ∈ state.account.included) :
      Transition state .receipt (state.goto (.created position))
  | cancelled {progress : Progress} {position : Nat}
      (running : state.phase = .confirming progress position)
      (included : position ∈ state.account.included) :
      Transition state .receipt (state.goto (.cancelled position))
  | giveUp {gasPrice position : Nat} (running : state.phase = .awaiting gasPrice position) :
      Transition state .giveUp (state.goto (.pricing ⟨0, 0, gasPrice⟩))
  | retry {label : Label} {progress : Progress}
      (running : state.phase = .pricing progress ∨ state.phase = .fetchingNonce progress ∨
        (∃ nonce, state.phase = .sending progress nonce true) ∨
        ∃ position, state.phase = .confirming progress position) :
      Transition state label (state.goto (State.retry progress))
  | panicked {progress : Progress} {currentGasPrice : Nat}
      (running : state.phase = .pricing progress)
      (overflow : calculateBumpedGasPrice progress.previousGasPrice currentGasPrice
        progress.iteration = none) :
      Transition state (.gasPrice (some currentGasPrice)) (state.goto .panicked)
  | priced {progress : Progress} {currentGasPrice bumpedGasPrice : Nat}
      (running : state.phase = .pricing progress)
      (bumped : calculateBumpedGasPrice progress.previousGasPrice currentGasPrice
        progress.iteration = some bumpedGasPrice) :
      Transition state (.gasPrice (some currentGasPrice))
        (state.goto (.fetchingNonce ⟨progress.attempt, progress.iteration + 1, bumpedGasPrice⟩))
  | fetchedNonce {progress : Progress} {nonce : Nat}
      (running : state.phase = .fetchingNonce progress)
      (reached : nonce ≤ state.account.nonce) :
      Transition state (.currentNonce (some nonce)) (state.goto (.sending progress nonce false))
  | sendCancel {progress : Progress} {nonce : Nat} {fallback accepted broadcast : Bool}
      {phase : Phase} (running : state.phase = .sending progress nonce fallback)
      (answered : phase = .confirming progress state.account.sent.length ∨
        phase = State.retry progress ∨ phase = .sending progress nonce true) :
      Transition state (.sendCancel accepted broadcast)
        ((state.broadcast nonce progress.previousGasPrice (some progress.iteration)).goto phase)
  | failCancel {progress : Progress} {nonce : Nat} {accepted broadcast : Bool}
      (running : state.phase = .sending progress nonce false) :
      Transition state (.sendCancel accepted broadcast)
        (state.goto (.sending progress nonce true))
  | mine {position : Nat} {account : NonceAccount Bid}
      (mined : state.account.mine position = some account) :
      Transition state (.mine position) { state with account := account }

variable {state next finish : State} {label : Label}

private theorem sendTask_transition {answer : SendAnswer} (sent : state.sendTask answer = some next) :
    Transition state (.sendTask answer) next := by
  rw [State.sendTask] at sent
  split at sent
  · rename_i gasPrice attempt fallback running
    split at sent
    · cases sent
      exact .failTask running (.inl rfl)
    · rename_i nonce
      split at sent
      · rename_i reached
        cases sent
        exact .sendTask running reached (.inl rfl)
      · cases sent
    · cases sent
      exact .failTask running (.inr rfl)
    · rename_i nonce
      split at sent
      · rename_i reached
        cases sent
        exact .sendTask running reached (.inr rfl)
      · cases sent
  · cases sent

private theorem sendCancel_transition {accepted broadcast : Bool}
    (sent : state.sendCancel accepted broadcast = some next) :
    Transition state (.sendCancel accepted broadcast) next := by
  rw [State.sendCancel] at sent
  split at sent
  · rename_i progress nonce fallback running
    split at sent
    · cases sent
      exact .sendCancel running (.inl rfl)
    · cases sent
      cases broadcast with
      | true =>
          apply Transition.sendCancel running
          cases fallback with
          | true => exact .inr (.inl rfl)
          | false => exact .inr (.inr rfl)
      | false =>
          cases fallback with
          | true => exact .retry (.inr (.inr (.inl ⟨nonce, running⟩)))
          | false => exact .failCancel running
  · cases sent

theorem step_transition (stepped : machine.step state label = some next) :
    Transition state label next := by
  cases label with
  | start gasPrice =>
      simp only [machine, step, State.start] at stepped
      split at stepped
      · rename_i ended
        cases stepped
        exact .start ended
      · cases stepped
  | sendTask answer => exact sendTask_transition stepped
  | receipt =>
      simp only [machine, step, State.receipt] at stepped
      split at stepped
      · rename_i gasPrice position running
        split at stepped
        · rename_i included
          cases stepped
          exact .created running (List.contains_iff_mem.mp included)
        · cases stepped
      · rename_i progress position running
        split at stepped
        · rename_i included
          cases stepped
          exact .cancelled running (List.contains_iff_mem.mp included)
        · cases stepped
      · cases stepped
  | giveUp =>
      simp only [machine, step, State.giveUp] at stepped
      split at stepped
      · rename_i gasPrice position running
        cases stepped
        exact .giveUp running
      · rename_i progress position running
        cases stepped
        exact .retry (.inr (.inr (.inr ⟨position, running⟩)))
      · cases stepped
  | gasPrice answer =>
      simp only [machine, step, State.gasPrice] at stepped
      split at stepped
      · rename_i progress running
        split at stepped
        · cases stepped
          exact .retry (.inl running)
        · rename_i currentGasPrice
          split at stepped
          · rename_i overflow
            cases stepped
            exact .panicked running overflow
          · rename_i bumpedGasPrice bumped
            cases stepped
            exact .priced running bumped
      · cases stepped
  | currentNonce answer =>
      simp only [machine, step, State.currentNonce] at stepped
      split at stepped
      · rename_i progress running
        split at stepped
        · cases stepped
          exact .retry (.inr (.inl running))
        · rename_i nonce
          split at stepped
          · rename_i reached
            cases stepped
            exact .fetchedNonce running reached
          · cases stepped
      · cases stepped
  | sendCancel accepted broadcast => exact sendCancel_transition stepped
  | mine position =>
      obtain ⟨account, mined, rfl⟩ := Option.map_eq_some_iff.mp stepped
      exact .mine mined

/-! ## Nonces -/

/-- The transaction whose receipt is waited for. -/
def Phase.awaited : Phase → Option Nat
  | .awaiting _ position | .confirming _ position => some position
  | _ => none

/-- The transaction whose receipt has come. -/
def Phase.confirmed : Phase → Option Nat
  | .created position | .cancelled position => some position
  | _ => none

/-- Nothing is sent while a receipt is waited for, so its inclusion settles
whatever was sent. -/
structure Tracked (state : State) : Prop where
  inOrder : state.account.InOrder
  reached : ∀ progress nonce fallback, state.phase = .sending progress nonce fallback →
    nonce ≤ state.account.nonce
  awaited : ∀ position ∈ state.phase.awaited, position < state.account.sent.length ∧
    (position ∈ state.account.included → state.account.Settled)
  confirmed : ∀ position ∈ state.phase.confirmed,
    position ∈ state.account.included ∧ state.account.Settled

@[simp] theorem awaited_retry (progress : Progress) : (State.retry progress).awaited = none := by
  rw [State.retry]
  split <;> rfl

@[simp] theorem confirmed_retry (progress : Progress) :
    (State.retry progress).confirmed = none := by
  rw [State.retry]
  split <;> rfl

theorem retry_ne_sending {progress other : Progress} {nonce : Nat} {fallback : Bool} :
    State.retry progress ≠ .sending other nonce fallback := by
  rw [State.retry]
  split <;> exact Phase.noConfusion

@[simp] theorem awaited_afterFailure (gasPrice attempt : Nat) (fallback : Bool) :
    (State.afterFailure gasPrice attempt fallback).awaited = none := by
  rw [State.afterFailure]
  repeat' split
  all_goals rfl

@[simp] theorem confirmed_afterFailure (gasPrice attempt : Nat) (fallback : Bool) :
    (State.afterFailure gasPrice attempt fallback).confirmed = none := by
  rw [State.afterFailure]
  repeat' split
  all_goals rfl

theorem afterFailure_ne_sending {gasPrice attempt nonce : Nat} {before fallback : Bool}
    {progress : Progress} :
    State.afterFailure gasPrice attempt before ≠ .sending progress nonce fallback := by
  rw [State.afterFailure]
  repeat' split
  all_goals exact Phase.noConfusion

/-- A phase that neither waits nor has its receipt, and does not send. -/
theorem Tracked.quiet {phase : Phase} (inOrder : state.account.InOrder)
    (noneAwaited : phase.awaited = none) (noneConfirmed : phase.confirmed = none)
    (noneSending : ∀ progress nonce fallback, phase ≠ .sending progress nonce fallback) :
    Tracked (state.goto phase) where
  inOrder := inOrder
  reached progress nonce fallback sending := absurd sending (noneSending progress nonce fallback)
  awaited position member := by
    simp only [State.goto, noneAwaited] at member
    cases member
  confirmed position member := by
    simp only [State.goto, noneConfirmed] at member
    cases member

/-- A transaction is sent, and its receipt is waited for. -/
theorem Tracked.wait {nonce gasPrice : Nat} {cancel : Option Nat} {phase : Phase}
    (tracked : Tracked state) (reached : nonce ≤ state.account.nonce)
    (waits : phase.awaited = some state.account.sent.length)
    (noneConfirmed : phase.confirmed = none)
    (noneSending : ∀ progress nonce fallback, phase ≠ .sending progress nonce fallback) :
    Tracked ((state.broadcast nonce gasPrice cancel).goto phase) where
  inOrder := tracked.inOrder.send reached
  reached progress nonce fallback sending := absurd sending (noneSending progress nonce fallback)
  awaited position member := by
    simp only [State.goto, waits, Option.mem_def, Option.some.injEq] at member
    subst member
    refine ⟨by simp [State.goto, State.broadcast, NonceAccount.send], ?_⟩
    intro included
    obtain ⟨transaction, found, -⟩ := tracked.inOrder.included_lt _ included
    rw [List.getElem?_eq_none (Nat.le_refl _)] at found
    cases found
  confirmed position member := by
    simp only [State.goto, noneConfirmed] at member
    cases member

/-- The receipt has come. -/
theorem Tracked.confirm {position : Nat} {phase : Phase} (tracked : Tracked state)
    (waited : state.phase.awaited = some position) (included : position ∈ state.account.included)
    (noneAwaited : phase.awaited = none) (isConfirmed : phase.confirmed = some position)
    (noneSending : ∀ progress nonce fallback, phase ≠ .sending progress nonce fallback) :
    Tracked (state.goto phase) where
  inOrder := tracked.inOrder
  reached progress nonce fallback sending := absurd sending (noneSending progress nonce fallback)
  awaited other member := by
    simp only [State.goto, noneAwaited] at member
    cases member
  confirmed other member := by
    simp only [State.goto, isConfirmed, Option.mem_def, Option.some.injEq] at member
    subst member
    exact ⟨included, (tracked.awaited position waited).2 included⟩

theorem Tracked.mine {position : Nat} {account : NonceAccount Bid} (tracked : Tracked state)
    (mined : state.account.mine position = some account) :
    Tracked { state with account := account } where
  inOrder := tracked.inOrder.mine mined
  reached progress nonce fallback sending := by
    have before := tracked.reached progress nonce fallback sending
    obtain ⟨-, rfl⟩ := NonceAccount.mine_eq_some mined
    exact Nat.le_succ_of_le before
  awaited other member := by
    refine ⟨?_, fun _ => tracked.inOrder.settled_of_mine mined⟩
    have inside := (tracked.awaited other member).1
    obtain ⟨-, rfl⟩ := NonceAccount.mine_eq_some mined
    exact inside
  confirmed other member := by
    refine ⟨?_, tracked.inOrder.settled_of_mine mined⟩
    have included := (tracked.confirmed other member).1
    obtain ⟨-, rfl⟩ := NonceAccount.mine_eq_some mined
    exact List.mem_append_left _ included

theorem tracked_step (tracked : Tracked state) (stepped : machine.step state label = some next) :
    Tracked next := by
  cases step_transition stepped with
  | start _ => exact ⟨tracked.inOrder, by simp, by simp [Phase.awaited], by simp [Phase.confirmed]⟩
  | sendTask running reached answered =>
      rcases answered with rfl | rfl
      · exact tracked.wait reached rfl rfl fun _ _ _ => Phase.noConfusion
      · exact .quiet (tracked.inOrder.send reached) (by simp) (by simp)
          fun _ _ _ => afterFailure_ne_sending
  | failTask running answered =>
      rcases answered with rfl | rfl
      · exact .quiet tracked.inOrder rfl rfl fun _ _ _ => Phase.noConfusion
      · exact .quiet tracked.inOrder (by simp) (by simp) fun _ _ _ => afterFailure_ne_sending
  | created running included =>
      exact tracked.confirm (by rw [running]; rfl) included rfl rfl
        fun _ _ _ => Phase.noConfusion
  | cancelled running included =>
      exact tracked.confirm (by rw [running]; rfl) included rfl rfl
        fun _ _ _ => Phase.noConfusion
  | giveUp running => exact .quiet tracked.inOrder rfl rfl fun _ _ _ => Phase.noConfusion
  | retry running =>
      exact .quiet tracked.inOrder (by simp) (by simp) fun _ _ _ => retry_ne_sending
  | panicked running overflow =>
      exact .quiet tracked.inOrder rfl rfl fun _ _ _ => Phase.noConfusion
  | priced running bumped => exact .quiet tracked.inOrder rfl rfl fun _ _ _ => Phase.noConfusion
  | fetchedNonce running reached =>
      refine ⟨tracked.inOrder, ?_, by simp [State.goto, Phase.awaited],
        by simp [State.goto, Phase.confirmed]⟩
      intro progress nonce fallback sending
      cases sending
      exact reached
  | sendCancel running answered =>
      have reached := tracked.reached _ _ _ running
      rcases answered with rfl | rfl | rfl
      · exact tracked.wait reached rfl rfl fun _ _ _ => Phase.noConfusion
      · exact .quiet (tracked.inOrder.send reached) (by simp) (by simp)
          fun _ _ _ => retry_ne_sending
      · refine ⟨tracked.inOrder.send reached, ?_, by simp [State.goto, Phase.awaited],
          by simp [State.goto, Phase.confirmed]⟩
        intro progress nonce fallback sending
        cases sending
        exact reached
  | failCancel running =>
      refine ⟨tracked.inOrder, ?_, by simp [State.goto, Phase.awaited],
        by simp [State.goto, Phase.confirmed]⟩
      intro progress nonce fallback sending
      cases sending
      exact tracked.reached _ _ _ running
  | mine mined => exact tracked.mine mined

theorem tracked_initial (nonce : Nat) : Tracked (initial nonce) where
  inOrder := ⟨by simp [initial], by simp [initial], by simp [initial]⟩
  reached := by simp [initial]
  awaited := by simp [initial, Phase.awaited]
  confirmed := by simp [initial, Phase.confirmed]

theorem tracked_run {nonce : Nat} {labels : List Label}
    (ran : machine.run (initial nonce) labels = some finish) : Tracked finish :=
  Machine.run_invariant tracked_step (tracked_initial nonce) ran

/-! ## What comes later -/

theorem extends_step {start : NonceAccount Bid} (extended : start.Extends state.account)
    (stepped : machine.step state label = some next) : start.Extends next.account := by
  cases step_transition stepped with
  | sendTask running reached answered => exact extended.send
  | sendCancel running answered => exact extended.send
  | mine mined => exact extended.mine mined
  | _ => exact extended

theorem extends_run {labels : List Label} (ran : machine.run state labels = some finish) :
    state.account.Extends finish.account :=
  @Machine.run_invariant _ _ machine (fun later => state.account.Extends later.account)
    extends_step _ _ labels (.refl _) ran

/-- In every run, once `create_new_task` has the receipt it waited for, of the
task or of a cancellation, nothing sent up to then is included later, and so no
task with the nonce of the receipt takes effect.  Without a receipt, at most
one of the transactions that wait is ever included. -/
theorem receipt_settles (nonce : Nat) (labels later : List Label) (reached finish : State)
    (ran : machine.run (initial nonce) labels = some reached)
    (ranLater : machine.run reached later = some finish) :
    (∀ position, reached.phase.confirmed = some position →
      position ∈ reached.account.included ∧
      (∀ other, ¬ reached.account.IsPending other) ∧
      (∀ other < reached.account.sent.length,
        (other ∈ finish.account.included ↔ other ∈ reached.account.included)) ∧
      ∀ other ≠ position,
        (reached.account.sent[other]?).map Prod.fst =
            (reached.account.sent[position]?).map Prod.fst →
          other ∉ finish.account.included) ∧
    ∀ left right, left < reached.account.sent.length → right < reached.account.sent.length →
      left ∈ finish.account.included → right ∈ finish.account.included →
      left ∉ reached.account.included → right ∉ reached.account.included → left = right := by
  have tracked := tracked_run ran
  have laterTracked : Tracked finish := Machine.run_invariant tracked_step tracked ranLater
  have extended := extends_run ranLater
  refine ⟨?_, ?_⟩
  · intro position isConfirmed
    obtain ⟨included, settled⟩ := tracked.confirmed position isConfirmed
    have stays : ∀ other < reached.account.sent.length,
        (other ∈ finish.account.included ↔ other ∈ reached.account.included) :=
      fun other isSent => extended.mem_included_iff settled isSent
    refine ⟨included, fun other => settled.not_isPending, stays, ?_⟩
    intro other different same isIncluded
    obtain ⟨transaction, found, -⟩ := tracked.inOrder.included_lt position included
    have isSent : other < reached.account.sent.length := by
      rw [found] at same
      obtain ⟨sent, isSent, -⟩ := Option.map_eq_some_iff.mp same
      exact (List.getElem?_eq_some_iff.mp isSent).1
    exact different (tracked.inOrder.included_inj other ((stays other isSent).mp isIncluded)
      position included same)
  · intro left right leftSent rightSent leftIncluded rightIncluded leftWaiting rightWaiting
    exact extended.included_unique tracked.inOrder laterTracked.inOrder leftSent rightSent
      leftIncluded rightIncluded leftWaiting rightWaiting

/-! ## Gas prices -/

/-- For one batch, the later bid is one of the same iteration and price, or
belongs to a later iteration and exceeds the earlier one by its percentage. -/
def Bid.Raises (earlier later : Bid) : Prop :=
  earlier.batch = later.batch →
    match later.cancel with
    | none => earlier.cancel = none ∧ earlier.gasPrice = later.gasPrice
    | some iteration =>
        (earlier.cancel = some iteration ∧ earlier.gasPrice = later.gasPrice) ∨
          (earlier.cancel.getD 0 < iteration ∧
            earlier.gasPrice * overrideGasMultiplier (iteration - 1) / percentageDivider ≤
              later.gasPrice)

/-- What the variables of the program tell about the bids so far. -/
def State.Outbids (state : State) : Phase → Prop
  | .creating gasPrice _ _ | .awaiting gasPrice _ =>
      ∀ transaction ∈ state.account.sent, transaction.2.Raises ⟨state.batches, gasPrice, none⟩
  | .pricing progress =>
      progress.attempt ≤ bumpMaxRetries ∧ progress.iteration ≤ progress.attempt ∧
        ∀ transaction ∈ state.account.sent, transaction.2.batch = state.batches →
          transaction.2.cancel.getD 0 ≤ progress.iteration ∧
            transaction.2.gasPrice ≤ progress.previousGasPrice
  | .fetchingNonce progress | .sending progress _ _ | .confirming progress _ =>
      progress.attempt ≤ bumpMaxRetries ∧ progress.iteration ≤ progress.attempt + 1 ∧
        ∀ transaction ∈ state.account.sent,
          transaction.2.Raises ⟨state.batches, progress.previousGasPrice, some progress.iteration⟩
  | _ => True

structure RisingBids (state : State) : Prop where
  batch_le : ∀ transaction ∈ state.account.sent, transaction.2.batch ≤ state.batches
  few : ∀ transaction ∈ state.account.sent, ∀ iteration ∈ transaction.2.cancel,
    iteration ≤ bumpMaxRetries + 1
  raised : state.account.sent.Pairwise fun earlier later => earlier.2.Raises later.2

structure Rising (state : State) : Prop extends RisingBids state where
  outbids : state.Outbids state.phase

theorem le_mul_overrideGasMultiplier (gasPrice iteration : Nat) :
    gasPrice ≤ gasPrice * overrideGasMultiplier iteration / percentageDivider := by
  rw [Nat.le_div_iff_mul_le (by decide)]
  apply Nat.mul_le_mul_left
  simp only [overrideGasMultiplier, overrideGasPricePercentageMultiplier, percentageDivider]
  omega

theorem Bid.Raises.le {earlier later : Bid} {iteration : Nat} (raises : earlier.Raises later)
    (sameBatch : earlier.batch = later.batch) (bids : later.cancel = some iteration) :
    earlier.cancel.getD 0 ≤ iteration ∧ earlier.gasPrice ≤ later.gasPrice := by
  have facts := raises sameBatch
  simp only [bids] at facts
  rcases facts with ⟨same, price⟩ | ⟨before, price⟩
  · rw [same, price]
    exact ⟨Nat.le_refl _, Nat.le_refl _⟩
  · exact ⟨Nat.le_of_lt before, (le_mul_overrideGasMultiplier _ _).trans price⟩

theorem calculateBumpedGasPrice_eq_some {previous current iteration bumped : Nat}
    (calculated : calculateBumpedGasPrice previous current iteration = some bumped) :
    previous * overrideGasMultiplier iteration / percentageDivider ≤ bumped ∧
      bumped ≤ max previous current * overrideGasMultiplier iteration / percentageDivider := by
  simp only [calculateBumpedGasPrice] at calculated
  split at calculated
  · cases calculated
  · cases calculated
    refine ⟨Nat.le_max_right _ _, Nat.max_le.mpr ⟨?_, ?_⟩⟩
    · exact Nat.div_le_div_right (Nat.mul_le_mul_right _ (Nat.le_max_right _ _))
    · exact Nat.div_le_div_right (Nat.mul_le_mul_right _ (Nat.le_max_left _ _))

/-- Steps that send nothing. -/
theorem RisingBids.goto {phase : Phase} (rising : RisingBids state)
    (outbids : state.Outbids phase) : Rising (state.goto phase) where
  batch_le := rising.batch_le
  few := rising.few
  raised := rising.raised
  outbids := by
    cases phase <;> exact outbids

/-- A bid that outbids what was sent is added. -/
theorem RisingBids.broadcast {nonce gasPrice : Nat} {cancel : Option Nat} {phase : Phase}
    (rising : RisingBids state)
    (raises : ∀ transaction ∈ state.account.sent,
      transaction.2.Raises ⟨state.batches, gasPrice, cancel⟩)
    (few : ∀ iteration ∈ cancel, iteration ≤ bumpMaxRetries + 1)
    (outbids : (state.broadcast nonce gasPrice cancel).Outbids phase) :
    Rising ((state.broadcast nonce gasPrice cancel).goto phase) := by
  have split : ∀ {transaction}, transaction ∈ (state.broadcast nonce gasPrice cancel).account.sent →
      transaction ∈ state.account.sent ∨ transaction = (nonce, ⟨state.batches, gasPrice, cancel⟩) :=
    fun member => (List.mem_append.mp member).imp_right List.mem_singleton.mp
  refine RisingBids.goto ⟨?_, ?_, ?_⟩ outbids
  · intro transaction member
    rcases split member with before | rfl
    · exact rising.batch_le transaction before
    · exact Nat.le_refl _
  · intro transaction member
    rcases split member with before | rfl
    · exact rising.few transaction before
    · exact few
  · apply List.pairwise_append.mpr
    refine ⟨rising.raised, List.pairwise_singleton _ _, ?_⟩
    intro transaction member new isNew
    rw [List.mem_singleton.mp isNew]
    exact raises transaction member

theorem Bid.raises_none {bid : Bid} {batch gasPrice : Nat} :
    bid.Raises ⟨batch, gasPrice, none⟩ ↔
      (bid.batch = batch → bid.cancel = none ∧ bid.gasPrice = gasPrice) := Iff.rfl

/-- A bid is repeated in its iteration, at its own price. -/
theorem Bid.raises_self (bid : Bid) : bid.Raises bid := by
  intro _
  cases bid.cancel with
  | none => exact ⟨rfl, rfl⟩
  | some iteration => exact .inl ⟨rfl, rfl⟩

/-- What is sent with the bid of the program still lets it outbid the rest. -/
theorem State.outbids_broadcast {gasPrice : Nat} {cancel : Option Nat} (nonce : Nat)
    (raises : ∀ transaction ∈ state.account.sent,
      transaction.2.Raises ⟨state.batches, gasPrice, cancel⟩) :
    ∀ transaction ∈ (state.broadcast nonce gasPrice cancel).account.sent,
      transaction.2.Raises ⟨state.batches, gasPrice, cancel⟩ := by
  intro transaction member
  rcases List.mem_append.mp member with before | new
  · exact raises transaction before
  · rw [List.mem_singleton.mp new]
    exact Bid.raises_self _

/-- The next attempt starts from the price of the last bid. -/
theorem State.outbids_retry {progress : Progress}
    (iteration : progress.iteration ≤ progress.attempt + 1)
    (bounded : ∀ transaction ∈ state.account.sent, transaction.2.batch = state.batches →
      transaction.2.cancel.getD 0 ≤ progress.iteration ∧
        transaction.2.gasPrice ≤ progress.previousGasPrice) :
    state.Outbids (retry progress) := by
  rw [retry]
  split
  · rename_i more
    exact ⟨more, iteration, bounded⟩
  · trivial

theorem State.outbids_afterFailure {gasPrice attempt : Nat} {fallback : Bool}
    (raises : ∀ transaction ∈ state.account.sent,
      transaction.2.Raises ⟨state.batches, gasPrice, none⟩) :
    state.Outbids (afterFailure gasPrice attempt fallback) := by
  rw [afterFailure]
  repeat' split
  · exact raises
  · exact raises
  · trivial

theorem rising_step (rising : Rising state) (stepped : machine.step state label = some next) :
    Rising next := by
  have outbids := rising.outbids
  cases step_transition stepped with
  | start _ =>
      refine ⟨⟨?_, rising.few, rising.raised⟩, ?_⟩
      · intro transaction member
        exact Nat.le_succ_of_le (rising.batch_le transaction member)
      · intro transaction member sameBatch
        have older := rising.batch_le transaction member
        dsimp only at sameBatch
        omega
  | sendTask running reached answered =>
      rw [running] at outbids
      have after := fun nonce => State.outbids_broadcast nonce outbids
      rcases answered with rfl | rfl
      · exact rising.toRisingBids.broadcast outbids (by simp) (after _)
      · exact rising.toRisingBids.broadcast outbids (by simp)
          (State.outbids_afterFailure (after _))
  | failTask running answered =>
      rw [running] at outbids
      rcases answered with rfl | rfl
      · exact rising.toRisingBids.goto trivial
      · exact rising.toRisingBids.goto (State.outbids_afterFailure outbids)
  | created running included => exact rising.toRisingBids.goto trivial
  | cancelled running included => exact rising.toRisingBids.goto trivial
  | giveUp running =>
      rw [running] at outbids
      apply rising.toRisingBids.goto
      refine ⟨Nat.zero_le _, Nat.le_refl _, ?_⟩
      intro transaction member sameBatch
      obtain ⟨noCancel, price⟩ := outbids transaction member sameBatch
      rw [noCancel, price]
      exact ⟨Nat.le_refl _, Nat.le_refl _⟩
  | retry running =>
      apply rising.toRisingBids.goto
      rcases running with running | running | ⟨nonce, running⟩ | ⟨position, running⟩
      · rw [running] at outbids
        obtain ⟨attempt, iteration, bounded⟩ := outbids
        exact State.outbids_retry (Nat.le_succ_of_le iteration) bounded
      all_goals
        rw [running] at outbids
        obtain ⟨attempt, iteration, raises⟩ := outbids
        apply State.outbids_retry iteration
        intro transaction member sameBatch
        exact (raises transaction member).le sameBatch rfl
  | panicked running overflow => exact rising.toRisingBids.goto trivial
  | priced running bumped =>
      rw [running] at outbids
      obtain ⟨attempt, iteration, bounded⟩ := outbids
      have atLeast := (calculateBumpedGasPrice_eq_some bumped).1
      apply rising.toRisingBids.goto
      refine ⟨attempt, Nat.succ_le_succ iteration, ?_⟩
      intro transaction member sameBatch
      obtain ⟨earlier, price⟩ := bounded transaction member sameBatch
      refine .inr ⟨Nat.lt_succ_of_le earlier, ?_⟩
      rw [Nat.add_sub_cancel]
      exact (Nat.div_le_div_right (Nat.mul_le_mul_right _ price)).trans atLeast
  | fetchedNonce running reached =>
      rw [running] at outbids
      exact rising.toRisingBids.goto outbids
  | @sendCancel progress nonce fallback accepted broadcast phase running answered =>
      rw [running] at outbids
      obtain ⟨attempt, iteration, raises⟩ := outbids
      have after := fun nonce => State.outbids_broadcast nonce raises
      have few : ∀ bid ∈ some progress.iteration, bid ≤ bumpMaxRetries + 1 := by
        intro bid isBid
        cases isBid
        exact iteration.trans (Nat.succ_le_succ attempt)
      rcases answered with rfl | rfl | rfl
      · exact rising.toRisingBids.broadcast raises few ⟨attempt, iteration, after _⟩
      · apply rising.toRisingBids.broadcast raises few
        apply State.outbids_retry iteration
        intro transaction member sameBatch
        exact (after _ transaction member).le sameBatch rfl
      · exact rising.toRisingBids.broadcast raises few ⟨attempt, iteration, after _⟩
  | failCancel running =>
      rw [running] at outbids
      exact rising.toRisingBids.goto outbids
  | mine mined =>
      obtain ⟨-, rfl⟩ := NonceAccount.mine_eq_some mined
      refine ⟨⟨rising.batch_le, rising.few, rising.raised⟩, ?_⟩
      generalize state.phase = phase at outbids
      cases phase <;> exact outbids

theorem rising_initial (nonce : Nat) : Rising (initial nonce) :=
  ⟨⟨by simp [initial], by simp [initial], by simp [initial]⟩, trivial⟩

/-! ## Products that fit -/

/-- Gas prices up to the bound are asked for and answered. -/
def PricesWithin (bound : Nat) (_ : State) : Label → Prop
  | .start gasPrice | .gasPrice (some gasPrice) => gasPrice ≤ bound
  | _ => True

instance (bound : Nat) (state : State) (label : Label) :
    Decidable (PricesWithin bound state label) := by
  unfold PricesWithin
  split <;> infer_instance

/-- An iteration at most triples the price. -/
def Phase.PriceWithin (bound : Nat) : Phase → Prop
  | .creating gasPrice _ _ | .awaiting gasPrice _ => gasPrice ≤ bound
  | .pricing progress | .fetchingNonce progress | .sending progress _ _
  | .confirming progress _ => progress.previousGasPrice ≤ bound * 3 ^ progress.iteration
  | .panicked => False
  | _ => True

theorem priceWithin_retry {bound : Nat} {progress : Progress}
    (within : progress.previousGasPrice ≤ bound * 3 ^ progress.iteration) :
    (State.retry progress).PriceWithin bound := by
  rw [State.retry]
  split
  · exact within
  · trivial

theorem priceWithin_afterFailure {bound gasPrice attempt : Nat} {fallback : Bool}
    (within : gasPrice ≤ bound) :
    (State.afterFailure gasPrice attempt fallback).PriceWithin bound := by
  rw [State.afterFailure]
  repeat' split
  · exact within
  · exact within
  · trivial

/-- The percentage of an iteration that the retry loop reaches. -/
theorem overrideGasMultiplier_le {iteration : Nat} (few : iteration ≤ bumpMaxRetries) :
    overrideGasMultiplier iteration ≤ 300 := by
  simp only [overrideGasMultiplier, overrideGasPricePercentageMultiplier,
    gasPriceIncrementPercentagePerIteration, bumpMaxRetries] at few ⊢
  omega

theorem priceWithin_priced {previous current iteration bumped : Nat}
    (few : iteration ≤ bumpMaxRetries) (previousWithin : previous ≤ 2 ^ 192 * 3 ^ iteration)
    (currentWithin : current ≤ 2 ^ 192)
    (calculated : calculateBumpedGasPrice previous current iteration = some bumped) :
    bumped ≤ 2 ^ 192 * 3 ^ (iteration + 1) := by
  have largest : max previous current ≤ 2 ^ 192 * 3 ^ iteration := by
    refine Nat.max_le.mpr ⟨previousWithin, currentWithin.trans ?_⟩
    exact Nat.le_mul_of_pos_right _ (Nat.pow_pos (by decide))
  calc bumped
      ≤ max previous current * overrideGasMultiplier iteration / percentageDivider :=
        (calculateBumpedGasPrice_eq_some calculated).2
    _ ≤ 2 ^ 192 * 3 ^ iteration * 300 / percentageDivider :=
        Nat.div_le_div_right (Nat.mul_le_mul largest (overrideGasMultiplier_le few))
    _ = 2 ^ 192 * 3 ^ (iteration + 1) := by
        have power : 3 ^ (iteration + 1) = 3 ^ iteration * 3 := Nat.pow_succ 3 iteration
        rw [power, percentageDivider]
        omega

theorem calculateBumpedGasPrice_ne_none {previous current iteration : Nat}
    (few : iteration ≤ bumpMaxRetries) (previousWithin : previous ≤ 2 ^ 192 * 3 ^ iteration)
    (currentWithin : current ≤ 2 ^ 192) :
    calculateBumpedGasPrice previous current iteration ≠ none := by
  have multiplier := overrideGasMultiplier_le few
  have triple : (3 : Nat) ^ iteration ≤ 3 ^ bumpMaxRetries := Nat.pow_le_pow_right (by decide) few
  have fits : ∀ {gasPrice}, gasPrice ≤ 2 ^ 192 * 3 ^ bumpMaxRetries →
      ¬ gasPrice * overrideGasMultiplier iteration > u256Max := by
    intro gasPrice within
    have product := Nat.mul_le_mul within multiplier
    have room : 2 ^ 192 * 3 ^ bumpMaxRetries * 300 ≤ u256Max := by decide
    omega
  have previousFits := fits (previousWithin.trans (Nat.mul_le_mul_left _ triple))
  have currentFits := fits (currentWithin.trans (Nat.le_mul_of_pos_right _ (by decide)))
  simp [calculateBumpedGasPrice, previousFits, currentFits]

theorem priceWithin_step (rising : Rising state) (within : state.phase.PriceWithin (2 ^ 192))
    (guarded : PricesWithin (2 ^ 192) state label)
    (stepped : machine.step state label = some next) : next.phase.PriceWithin (2 ^ 192) := by
  have outbids := rising.outbids
  cases step_transition stepped with
  | start _ => exact guarded
  | sendTask running reached answered =>
      rw [running] at within
      rcases answered with rfl | rfl
      · exact within
      · exact priceWithin_afterFailure within
  | failTask running answered =>
      rw [running] at within
      rcases answered with rfl | rfl
      · trivial
      · exact priceWithin_afterFailure within
  | created running included => trivial
  | cancelled running included => trivial
  | giveUp running =>
      rw [running] at within
      exact within
  | retry running =>
      rcases running with running | running | ⟨nonce, running⟩ | ⟨position, running⟩
      all_goals
        rw [running] at within
        exact priceWithin_retry within
  | panicked running overflow =>
      rw [running] at within outbids
      obtain ⟨attempt, iteration, -⟩ := outbids
      exact calculateBumpedGasPrice_ne_none (iteration.trans attempt) within guarded overflow
  | priced running bumped =>
      rw [running] at within outbids
      obtain ⟨attempt, iteration, -⟩ := outbids
      exact priceWithin_priced (iteration.trans attempt) within guarded bumped
  | fetchedNonce running reached =>
      rw [running] at within
      exact within
  | sendCancel running answered =>
      rw [running] at within
      rcases answered with rfl | rfl | rfl
      · exact within
      · exact priceWithin_retry within
      · exact within
  | failCancel running =>
      rw [running] at within
      exact within
  | mine mined => exact within

/-- In every run, each bid of a cancellation exceeds what was sent for the
batch before its iteration by the percentage of the iteration, a fifth at least,
and no cancellation has more than 34 iterations.  While the gas prices are at
most `2 ^ 192`, no product of them overflows. -/
theorem bids_rise (nonce : Nat) (labels : List Label) (finish : State)
    (ran : machine.run (initial nonce) labels = some finish) :
    (finish.account.sent.Pairwise fun earlier later => earlier.2.Raises later.2) ∧
    (∀ transaction ∈ finish.account.sent, ∀ iteration ∈ transaction.2.cancel,
      iteration ≤ bumpMaxRetries + 1) ∧
    (machine.Meets (PricesWithin (2 ^ 192)) (initial nonce) labels →
      finish.phase ≠ .panicked) := by
  have rising : Rising finish := Machine.run_invariant rising_step (rising_initial nonce) ran
  refine ⟨rising.raised, rising.few, ?_⟩
  intro meets
  have within : Rising finish ∧ finish.phase.PriceWithin (2 ^ 192) := by
    refine @Machine.run_preserves _ _ machine (PricesWithin (2 ^ 192))
      (fun state => Rising state ∧ state.phase.PriceWithin (2 ^ 192)) ?_ _ _ _
      ⟨rising_initial nonce, trivial⟩ meets ran
    intro state next label invariant guarded stepped
    exact ⟨rising_step invariant.1 stepped,
      priceWithin_step invariant.1 invariant.2 guarded stepped⟩
  intro panicked
  have impossible := within.2
  rw [panicked] at impossible
  exact impossible

namespace Sample

/-- The receipt of a task does not come, and the first bid is answered with an
error although it is broadcast.  The second one, at the next nonce, is
confirmed after the task. -/
def lateTask : List Label :=
  [.start 1000, .sendTask (.accepted 7), .giveUp, .gasPrice (some 900), .currentNonce (some 7),
    .sendCancel false true, .sendCancel false false, .mine 0, .gasPrice (some 1500),
    .currentNonce (some 8), .sendCancel true true, .mine 2, .receipt]

end Sample

theorem receipt_settles_lateTask :
    ∃ reached, machine.run (initial 7) Sample.lateTask = some reached ∧
      reached.phase.confirmed = some 2 ∧ (∀ other, ¬ reached.account.IsPending other) ∧
      1 ∉ reached.account.included := by
  have ran : (machine.run (initial 7) Sample.lateTask).any (fun reached =>
      decide (reached.phase.confirmed = some 2 ∧ 1 ∉ reached.account.included)) = true := by
    decide +kernel
  obtain ⟨reached, ran, facts⟩ := (Option.any_eq_true _ _).mp ran
  obtain ⟨isConfirmed, late⟩ := of_decide_eq_true facts
  have settled := (receipt_settles 7 Sample.lateTask [] reached reached ran rfl).1 2 isConfirmed
  exact ⟨reached, ran, isConfirmed, settled.2.1, late⟩

theorem bids_rise_lateTask :
    ∃ finish, machine.run (initial 7) Sample.lateTask = some finish ∧
      finish.account.sent.map (fun transaction => transaction.2.gasPrice) = [1000, 1200, 1875] ∧
      finish.account.sent.Pairwise (fun earlier later => earlier.2.Raises later.2) ∧
      finish.phase ≠ .panicked := by
  have ran : (machine.run (initial 7) Sample.lateTask).any (fun finish =>
      decide (finish.account.sent.map (fun transaction => transaction.2.gasPrice) =
        [1000, 1200, 1875])) = true := by
    decide +kernel
  obtain ⟨finish, ran, prices⟩ := (Option.any_eq_true _ _).mp ran
  have rises := bids_rise 7 Sample.lateTask finish ran
  exact ⟨finish, ran, of_decide_eq_true prices, rises.1, rises.2.2 (by decide +kernel)⟩

end AlignedLayer.Cancellation
