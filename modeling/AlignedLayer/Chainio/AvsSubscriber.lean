import AlignedLayer.Aggregator.Tasks
import AlignedLayer.Library.DedupWindow
import AlignedLayer.Library.Keccak256

/-!
# The subscription to new batches

`SubscribeToNewTasksV3` starts two goroutines.  One forwards batches from both
subscriptions and from the poll; the other waits for errors of the
subscriptions and subscribes again.  It asks both for their error channel, also
the one that could not be started.
-/

namespace AlignedLayer

/-- The two connections. -/
inductive Rpc where
  | main
  | fallback
  deriving DecidableEq

/-- A variable of the interface type `event.Subscription`. -/
inductive Subscription where
  | missing
  | live
  /-- Its error channel is ready. -/
  | ended
  deriving DecidableEq

structure ErrorPair where
  errorMainRPC : Option String
  errorFallbackRPC : Option String
  deriving DecidableEq

/-- Where the goroutine that handles errors stands. -/
inductive ErrorLoop where
  | entering
  | selecting
  | sending (errorPair : ErrorPair)
  | ended
  deriving DecidableEq

structure AvsSubscriber where
  sub : Rpc → Subscription
  err : Rpc → Option String
  errorLoop : ErrorLoop
  batches : DedupWindow BatchData Bytes32
  /-- History: what the receiver of the error pairs got. -/
  errorPairs : List ErrorPair
  panicked : Bool

namespace AvsSubscriber

/-- Five minutes, in nanoseconds. -/
def removeBatchFromSetInterval : Nat := 5 * 60 * 1000000000

def blockInterval : Nat := 1000

/-- `SubscribeToNewTasksV3` with the errors of the two first subscriptions.  The
ticker panics without a positive interval. -/
def subscribeToNewTasksV3 (errors : Rpc → Option String) (pollInterval : Int) :
    Except ErrorPair AvsSubscriber :=
  if (errors .main).isSome ∧ (errors .fallback).isSome then
    .error ⟨errors .main, errors .fallback⟩
  else
    .ok {
      sub := fun rpc => if (errors rpc).isSome then .missing else .live
      err := fun _ => none
      errorLoop := .entering
      batches := DedupWindow.new
      errorPairs := []
      panicked := pollInterval ≤ 0 }

inductive Label where
  | wait (duration : Nat)
  /-- The producer of a subscription returns. -/
  | ends (rpc : Rpc)
  | newBatch (rpc : Rpc) (batch : BatchData)
  /-- A tick, with what the chain answers. -/
  | poll (latestBlock : Option Nat) (logs : Nat → Option (List BatchData))
      (responded : Bytes32 → Option Bool)
  /-- The receiver of the new tasks is ready. -/
  | receiveTask
  | removeBatch (position : Nat)
  /-- The error channels are looked up. -/
  | select
  /-- An error was read, and this came of the next subscription. -/
  | resubscribe (rpc : Rpc) (error : Option String)
  | receiveErrorPair

section

variable (keccak : Bytes → Bytes32)

def batchIdentifierHash (batch : BatchData) : Bytes32 :=
  Aggregator.batchIdentifierHash keccak batch.batchMerkleRoot batch.senderAddress

def getLatestNotRespondedTaskFromEthereumV3 (latestBlock : Option Nat)
    (logs : Nat → Option (List BatchData)) (responded : Bytes32 → Option Bool) :
    Option BatchData := do
  let latestBlock ← latestBlock
  let fromBlock := if latestBlock < blockInterval then 0 else latestBlock - blockInterval
  let found ← logs fromBlock
  let lastLog ← found.getLast?
  let isResponded ← responded (batchIdentifierHash keccak lastLog)
  if isResponded then none else some lastLog

/-- The set of batches, the send to `newTaskCreatedChan` and the goroutine that
removes the batch again are those of a `DedupWindow`. -/
def processNewBatchV3 (batch : BatchData) (subscriber : AvsSubscriber) : AvsSubscriber :=
  { subscriber with
    batches := subscriber.batches.deliver (batchIdentifierHash keccak) batch }

/-- After a subscription was tried again. -/
def resubscribed (rpc : Rpc) (error : Option String) (subscriber : AvsSubscriber) :
    AvsSubscriber :=
  let err := Function.update subscriber.err rpc error
  { subscriber with
    sub := if error.isSome then subscriber.sub else Function.update subscriber.sub rpc .live
    err := err
    errorLoop :=
      if (err .main).isSome ∧ (err .fallback).isSome then .sending ⟨err .main, err .fallback⟩
      else .entering }

def step (subscriber : AvsSubscriber) (label : Label) : Option AvsSubscriber :=
  if subscriber.panicked then
    none
  else
    match label with
    | .wait duration => some { subscriber with batches := subscriber.batches.wait duration }
    | .ends rpc =>
        if subscriber.sub rpc = .live then
          some { subscriber with sub := Function.update subscriber.sub rpc .ended }
        else
          none
    | .newBatch rpc batch =>
        if subscriber.sub rpc = .live ∧ subscriber.batches.sending.isNone then
          some (subscriber.processNewBatchV3 keccak batch)
        else
          none
    | .poll latestBlock logs responded =>
        if subscriber.batches.sending.isNone then
          match getLatestNotRespondedTaskFromEthereumV3 keccak latestBlock logs responded with
          | none => some subscriber
          | some batch => some (subscriber.processNewBatchV3 keccak batch)
        else
          none
    | .receiveTask =>
        (subscriber.batches.take (batchIdentifierHash keccak) removeBatchFromSetInterval).map
          fun batches => { subscriber with batches := batches }
    | .removeBatch position =>
        (subscriber.batches.remove position).map
          fun batches => { subscriber with batches := batches }
    | .select =>
        if subscriber.errorLoop = .entering then
          -- The error channel of a missing subscription is a nil dereference.
          if subscriber.sub .main = .missing ∨ subscriber.sub .fallback = .missing then
            some { subscriber with panicked := true }
          else
            some { subscriber with errorLoop := .selecting }
        else
          none
    | .resubscribe rpc error =>
        if subscriber.errorLoop = .selecting ∧ subscriber.sub rpc = .ended then
          some (subscriber.resubscribed rpc error)
        else
          none
    | .receiveErrorPair =>
        match subscriber.errorLoop with
        | .sending errorPair =>
            some { subscriber with
              errorLoop := .ended
              errorPairs := subscriber.errorPairs ++ [errorPair] }
        | _ => none

def machine : Machine AvsSubscriber Label where
  step := step keccak

/-- Nothing panicked; every delivered batch is forwarded or offered, and not
twice within the interval; an error pair has two errors and comes once, after
both subscriptions have ended. -/
structure Safe (subscriber : AvsSubscriber) : Prop where
  running : subscriber.panicked = false
  forwardsAll : subscriber.batches.ForwardsAll (batchIdentifierHash keccak)
  offered : ∀ batch ∈ subscriber.batches.sending, ∃ next,
    step keccak subscriber .receiveTask = some next ∧ next.batches.forwarded =
      subscriber.batches.forwarded ++ [(batch, subscriber.batches.now)]
  apart : subscriber.batches.Apart (batchIdentifierHash keccak) removeBatchFromSetInterval
  atMostOnePair : subscriber.errorPairs.length ≤ 1
  bothDown : ∀ errorPair ∈ subscriber.errorPairs,
    errorPair.errorMainRPC.isSome ∧ errorPair.errorFallbackRPC.isSome ∧
      ∀ rpc, subscriber.sub rpc = .ended

end

variable {keccak : Bytes → Bytes32} {subscriber next : AvsSubscriber} {label : Label}

/-! ## The error loop -/

/-- A subscription whose last attempt failed is down, and the loop ends with
one pair. -/
structure Reconnects (subscriber : AvsSubscriber) : Prop where
  running : subscriber.panicked = false
  started : ∀ rpc, subscriber.sub rpc ≠ .missing
  failed : ∀ rpc, (subscriber.err rpc).isSome → subscriber.sub rpc = .ended
  sending : ∀ errorPair, subscriber.errorLoop = .sending errorPair →
    errorPair.errorMainRPC.isSome ∧ errorPair.errorFallbackRPC.isSome ∧
      ∀ rpc, subscriber.sub rpc = .ended
  unsent : subscriber.errorLoop ≠ .ended → subscriber.errorPairs = []
  atMostOnePair : subscriber.errorPairs.length ≤ 1
  bothDown : ∀ errorPair ∈ subscriber.errorPairs,
    errorPair.errorMainRPC.isSome ∧ errorPair.errorFallbackRPC.isSome ∧
      ∀ rpc, subscriber.sub rpc = .ended

namespace Reconnects

/-- The forwarding goroutine shares nothing with the error loop. -/
theorem withBatches (reconnects : subscriber.Reconnects)
    (batches : DedupWindow BatchData Bytes32) :
    Reconnects { subscriber with batches := batches } where
  running := reconnects.running
  started := reconnects.started
  failed := reconnects.failed
  sending := reconnects.sending
  unsent := reconnects.unsent
  atMostOnePair := reconnects.atMostOnePair
  bothDown := reconnects.bothDown

theorem ends (reconnects : subscriber.Reconnects) (rpc : Rpc) :
    Reconnects { subscriber with sub := Function.update subscriber.sub rpc .ended } := by
  have kept : ∀ other, subscriber.sub other = .ended →
      Function.update subscriber.sub rpc .ended other = .ended := by
    intro other ended
    by_cases same : other = rpc
    · rw [same, Function.update_self]
    · rw [Function.update_of_ne same, ended]
  refine ⟨reconnects.running, ?_, ?_, ?_, reconnects.unsent, reconnects.atMostOnePair, ?_⟩
  · intro other missing
    dsimp only at missing
    by_cases same : other = rpc
    · rw [same, Function.update_self] at missing
      cases missing
    · rw [Function.update_of_ne same] at missing
      exact reconnects.started other missing
  · intro other hasError
    exact kept other (reconnects.failed other hasError)
  · intro errorPair isSending
    obtain ⟨errMain, errFallback, down⟩ := reconnects.sending errorPair isSending
    exact ⟨errMain, errFallback, fun other => kept other (down other)⟩
  · intro errorPair member
    obtain ⟨errMain, errFallback, down⟩ := reconnects.bothDown errorPair member
    exact ⟨errMain, errFallback, fun other => kept other (down other)⟩

theorem resubscribed (reconnects : subscriber.Reconnects)
    (selecting : subscriber.errorLoop = .selecting) {rpc : Rpc}
    (down : subscriber.sub rpc = .ended) (error : Option String) :
    (subscriber.resubscribed rpc error).Reconnects := by
  have noPair : subscriber.errorPairs = [] := by
    apply reconnects.unsent
    rw [selecting]
    intro impossible
    cases impossible
  have failed : ∀ other, (Function.update subscriber.err rpc error other).isSome →
      (if error.isSome then subscriber.sub else Function.update subscriber.sub rpc .live) other =
        .ended := by
    intro other hasError
    by_cases same : other = rpc
    · subst same
      rw [Function.update_self] at hasError
      rw [if_pos hasError]
      exact down
    · rw [Function.update_of_ne same] at hasError
      split
      · exact reconnects.failed other hasError
      · rw [Function.update_of_ne same]
        exact reconnects.failed other hasError
  rw [AvsSubscriber.resubscribed]
  refine ⟨reconnects.running, ?_, failed, ?_, fun _ => noPair, reconnects.atMostOnePair, ?_⟩
  · intro other missing
    dsimp only at missing
    split at missing
    · exact reconnects.started other missing
    · by_cases same : other = rpc
      · rw [same, Function.update_self] at missing
        cases missing
      · rw [Function.update_of_ne same] at missing
        exact reconnects.started other missing
  · intro errorPair isSending
    dsimp only at isSending
    split at isSending
    · rename_i both
      cases isSending
      refine ⟨both.1, both.2, ?_⟩
      intro other
      cases other with
      | main => exact failed .main both.1
      | fallback => exact failed .fallback both.2
    · cases isSending
  · intro errorPair member
    rw [noPair] at member
    cases member

theorem step (reconnects : subscriber.Reconnects)
    (stepped : step keccak subscriber label = some next) : next.Reconnects := by
  unfold AvsSubscriber.step at stepped
  rw [if_neg (Bool.eq_false_iff.mp reconnects.running)] at stepped
  cases label with
  | wait duration =>
      cases stepped
      exact reconnects.withBatches _
  | ends rpc =>
      dsimp only at stepped
      split at stepped
      · cases stepped
        exact reconnects.ends rpc
      · cases stepped
  | newBatch rpc batch =>
      dsimp only at stepped
      split at stepped
      · cases stepped
        exact reconnects.withBatches _
      · cases stepped
  | poll latestBlock logs responded =>
      dsimp only at stepped
      split at stepped
      · split at stepped
        · cases stepped
          exact reconnects
        · cases stepped
          exact reconnects.withBatches _
      · cases stepped
  | receiveTask =>
      obtain ⟨batches, -, rfl⟩ := Option.map_eq_some_iff.mp stepped
      exact reconnects.withBatches batches
  | removeBatch position =>
      obtain ⟨batches, -, rfl⟩ := Option.map_eq_some_iff.mp stepped
      exact reconnects.withBatches batches
  | select =>
      dsimp only at stepped
      split at stepped
      · rename_i entering
        rw [if_neg] at stepped
        · cases stepped
          refine ⟨reconnects.running, reconnects.started, reconnects.failed, ?_, ?_,
            reconnects.atMostOnePair, reconnects.bothDown⟩
          · intro errorPair isSending
            cases isSending
          · intro _
            apply reconnects.unsent
            rw [entering]
            intro impossible
            cases impossible
        · rintro (missing | missing)
          · exact reconnects.started .main missing
          · exact reconnects.started .fallback missing
      · cases stepped
  | resubscribe rpc error =>
      dsimp only at stepped
      split at stepped
      · rename_i ready
        cases stepped
        exact reconnects.resubscribed ready.1 ready.2 error
      · cases stepped
  | receiveErrorPair =>
      dsimp only at stepped
      split at stepped
      · rename_i errorPair isSending
        cases stepped
        have noPair : subscriber.errorPairs = [] := by
          apply reconnects.unsent
          rw [isSending]
          intro impossible
          cases impossible
        refine ⟨reconnects.running, reconnects.started, reconnects.failed, ?_, ?_, ?_, ?_⟩
        · intro other impossible
          cases impossible
        · intro going
          exact absurd rfl going
        · rw [noPair]
          exact Nat.le_refl 1
        · intro other member
          rw [noPair, List.nil_append, List.mem_singleton] at member
          rw [member]
          exact reconnects.sending errorPair isSending
      · cases stepped

end Reconnects

/-! ## The forwarding loop -/

theorem tracked_step (running : subscriber.panicked = false)
    (tracked : subscriber.batches.Tracked (batchIdentifierHash keccak) removeBatchFromSetInterval)
    (stepped : step keccak subscriber label = some next) :
    next.batches.Tracked (batchIdentifierHash keccak) removeBatchFromSetInterval := by
  unfold step at stepped
  rw [if_neg (Bool.eq_false_iff.mp running)] at stepped
  cases label with
  | wait duration =>
      cases stepped
      exact tracked.wait duration
  | ends rpc =>
      dsimp only at stepped
      split at stepped
      · cases stepped
        exact tracked
      · cases stepped
  | newBatch rpc batch =>
      dsimp only at stepped
      split at stepped
      · rename_i ready
        cases stepped
        exact tracked.deliver (Option.isNone_iff_eq_none.mp ready.2) batch
      · cases stepped
  | poll latestBlock logs responded =>
      dsimp only at stepped
      split at stepped
      · rename_i idle
        split at stepped
        · cases stepped
          exact tracked
        · cases stepped
          exact tracked.deliver (Option.isNone_iff_eq_none.mp idle) _
      · cases stepped
  | receiveTask =>
      obtain ⟨batches, taken, rfl⟩ := Option.map_eq_some_iff.mp stepped
      exact tracked.take taken
  | removeBatch position =>
      obtain ⟨batches, removed, rfl⟩ := Option.map_eq_some_iff.mp stepped
      exact tracked.remove removed
  | select =>
      dsimp only at stepped
      split at stepped
      · split at stepped
        · cases stepped
          exact tracked
        · cases stepped
          exact tracked
      · cases stepped
  | resubscribe rpc error =>
      dsimp only at stepped
      split at stepped
      · cases stepped
        exact tracked
      · cases stepped
  | receiveErrorPair =>
      dsimp only at stepped
      split at stepped
      · cases stepped
        exact tracked
      · cases stepped

theorem safe_of_invariants (reconnects : subscriber.Reconnects)
    (tracked : subscriber.batches.Tracked (batchIdentifierHash keccak) removeBatchFromSetInterval) :
    subscriber.Safe keccak where
  running := reconnects.running
  forwardsAll := tracked.forwardsAll
  offered batch waits := by
    obtain ⟨batches, taken, forwarded⟩ := @DedupWindow.take_of_waiting _ _
      (batchIdentifierHash keccak) removeBatchFromSetInterval _ batch waits
    refine ⟨{ subscriber with batches := batches }, ?_, forwarded⟩
    unfold step
    rw [if_neg (Bool.eq_false_iff.mp reconnects.running)]
    dsimp only
    rw [taken, Option.map_some]
  apart := tracked.apart
  atMostOnePair := reconnects.atMostOnePair
  bothDown := reconnects.bothDown

/-! ## All interleavings -/

theorem start_eq {errors : Rpc → Option String} {pollInterval : Int} {start : AvsSubscriber}
    (started : subscribeToNewTasksV3 errors pollInterval = .ok start) :
    start = {
      sub := fun rpc => if (errors rpc).isSome then .missing else .live
      err := fun _ => none
      errorLoop := .entering
      batches := DedupWindow.new
      errorPairs := []
      panicked := pollInterval ≤ 0 } := by
  rw [subscribeToNewTasksV3] at started
  split at started
  · cases started
  · cases started
    rfl

/-- With both subscriptions and a ticker, every interleaving is safe. -/
theorem safe_of_run {errors : Rpc → Option String} {pollInterval : Int}
    {start finish : AvsSubscriber} {labels : List Label}
    (started : subscribeToNewTasksV3 errors pollInterval = .ok start)
    (succeed : ∀ rpc, errors rpc = none) (positive : 0 < pollInterval)
    (ran : (machine keccak).run start labels = some finish) : finish.Safe keccak := by
  obtain rfl := start_eq started
  have preserved : ∀ {state next : AvsSubscriber} {label : Label},
      (state.Reconnects ∧ state.batches.Tracked (batchIdentifierHash keccak)
        removeBatchFromSetInterval) → (machine keccak).step state label = some next →
      next.Reconnects ∧ next.batches.Tracked (batchIdentifierHash keccak)
        removeBatchFromSetInterval := by
    intro state next label holds stepped
    exact ⟨holds.1.step stepped, tracked_step holds.1.running holds.2 stepped⟩
  have reached := Machine.run_invariant preserved ⟨?_, DedupWindow.Tracked.new⟩ ran
  · exact safe_of_invariants reached.1 reached.2
  · constructor
    case running => exact decide_eq_false (by omega)
    case started =>
      intro rpc missing
      dsimp only at missing
      rw [succeed rpc] at missing
      cases missing
    case failed =>
      intro rpc hasError
      cases hasError
    case sending =>
      intro errorPair isSending
      cases isSending
    case unsent => exact fun _ => rfl
    case atMostOnePair => exact Nat.zero_le 1
    case bothDown =>
      intro errorPair member
      cases member

/-- The error loop asks a missing subscription for its channel. -/
theorem select_panics {errors : Rpc → Option String} {pollInterval : Int} {start : AvsSubscriber}
    (started : subscribeToNewTasksV3 errors pollInterval = .ok start) (positive : 0 < pollInterval)
    {rpc : Rpc} (failed : (errors rpc).isSome) :
    ∃ finish, (machine keccak).run start [.select] = some finish ∧ finish.panicked = true := by
  obtain rfl := start_eq started
  let start : AvsSubscriber :=
    { sub := fun rpc => if (errors rpc).isSome then .missing else .live
      err := fun _ => none
      errorLoop := .entering
      batches := DedupWindow.new
      errorPairs := []
      panicked := pollInterval ≤ 0 }
  have going : ¬ start.panicked = true := by
    intro panicked
    have bound := of_decide_eq_true panicked
    omega
  have missing : start.sub .main = .missing ∨ start.sub .fallback = .missing := by
    cases rpc with
    | main => exact .inl (if_pos failed)
    | fallback => exact .inr (if_pos failed)
  have stepped : step keccak start .select = some { start with panicked := true } := by
    unfold step
    rw [if_neg going]
    dsimp only
    rw [if_pos rfl, if_pos missing]
  exact ⟨{ start with panicked := true }, Option.bind_eq_some_iff.mpr ⟨_, stepped, rfl⟩, rfl⟩

/-- For every outcome of the first subscriptions of which at least one succeeds,
all interleavings are safe exactly when both succeed and the poll interval is
positive. -/
theorem subscriber_safe_iff (keccak : Bytes → Bytes32) (errors : Rpc → Option String)
    (pollInterval : Int) (start : AvsSubscriber)
    (started : subscribeToNewTasksV3 errors pollInterval = .ok start) :
    (∀ labels finish, (machine keccak).run start labels = some finish → finish.Safe keccak) ↔
      (∀ rpc, errors rpc = none) ∧ 0 < pollInterval := by
  constructor
  · intro safe
    have positive : 0 < pollInterval := by
      have running := (safe [] start rfl).running
      rw [start_eq started] at running
      have above := of_decide_eq_false running
      omega
    refine ⟨?_, positive⟩
    intro rpc
    by_contra failed
    obtain ⟨finish, ran, panicked⟩ := @select_panics keccak _ _ _ started positive rpc
      (Option.isSome_iff_ne_none.mpr failed)
    have running := (safe _ finish ran).running
    rw [panicked] at running
    cases running
  · rintro ⟨succeed, positive⟩ labels finish ran
    exact safe_of_run started succeed positive ran

namespace Sample

/-- The main connection is down, the fallback connection is not. -/
def mainDown : Rpc → Option String
  | .main => some "connection refused"
  | .fallback => none

/-- Both connections are up. -/
def bothUp : AvsSubscriber :=
  { sub := fun _ => .live
    err := fun _ => none
    errorLoop := .entering
    batches := DedupWindow.new
    errorPairs := []
    panicked := false }

def batch : BatchData :=
  ⟨Bytes32.zero, 1⟩

/-- A batch comes on both connections, and then both end for good. -/
def bothEnd : List Label :=
  [.newBatch .main batch, .receiveTask, .newBatch .fallback batch, .select, .ends .main,
    .resubscribe .main (some "timeout"), .select, .ends .fallback,
    .resubscribe .fallback (some "timeout"), .receiveErrorPair]

end Sample

theorem subscriber_safe_bothUp : ∃ start finish,
    subscribeToNewTasksV3 (fun _ => none) 20 = .ok start ∧
      (machine Keccak256.keccak256).run start Sample.bothEnd = some finish ∧
      finish.batches.forwarded.length = 1 ∧ finish.errorPairs.length = 1 ∧
      finish.Safe Keccak256.keccak256 := by
  have ran : ((machine Keccak256.keccak256).run Sample.bothUp Sample.bothEnd).any (fun finish =>
      finish.batches.forwarded.length = 1 ∧ finish.errorPairs.length = 1) = true := by
    decide +kernel
  obtain ⟨finish, ran, holds⟩ := (Option.any_eq_true _ _).mp ran
  obtain ⟨forwarded, errorPairs⟩ := of_decide_eq_true holds
  refine ⟨Sample.bothUp, finish, rfl, ran, forwarded, errorPairs, ?_⟩
  exact (subscriber_safe_iff Keccak256.keccak256 (fun _ => none) 20 Sample.bothUp rfl).mpr
    ⟨fun _ => rfl, by decide⟩ _ finish ran

/-- Without the main connection the error loop panics, whatever the fallback
connection does. -/
theorem one_subscription_panics : ∃ start finish,
    subscribeToNewTasksV3 Sample.mainDown 20 = .ok start ∧
      (machine Keccak256.keccak256).run start [.select] = some finish ∧
      ¬ finish.Safe Keccak256.keccak256 := by
  obtain ⟨start, started⟩ : ∃ start, subscribeToNewTasksV3 Sample.mainDown 20 = .ok start :=
    ⟨_, rfl⟩
  obtain ⟨finish, ran, panicked⟩ := @select_panics Keccak256.keccak256 _ _ _ started (by decide)
    .main rfl
  refine ⟨start, finish, started, ran, ?_⟩
  intro safe
  rw [safe.running] at panicked
  cases panicked

end AvsSubscriber

end AlignedLayer
