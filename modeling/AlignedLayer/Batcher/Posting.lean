import AlignedLayer.Batcher.BlockSteps
import AlignedLayer.Library.Keccak256

/-!
# One batch in flight

The flag and its lock together keep a second batch from being extracted: the
flag until `finalize_batch` has returned, the lock until a failed batch is
back in the queue.  Every way out of `handle_new_block` leaves the flag
cleared.
-/

namespace AlignedLayer.BlockTasks

open State

/-- Each lock is held by the task in the section it protects, and the flag is
set for the one task that posts. -/
structure Exclusive (state : State) : Prop where
  batchState : HeldBy state.tasks BlockTask.holdsBatchState state.batchStateLock
  lastUploaded : HeldBy state.tasks BlockTask.holdsLastUploaded state.lastUploadedLock
  restoring : HeldBy state.tasks BlockTask.restores state.postingLock
  posting : ∃ poster, HeldBy state.tasks BlockTask.posts poster ∧
    state.postingBatch = poster.isSome
  apart : state.postingBatch = true → state.postingLock = none

variable {environment : Environment} {config : Config} {state next : State} {label : Label}
  {task : TaskId} {old moved : BlockTask}

theorem exclusive_initial (lastUploadedBatchBlock : Nat) :
    Exclusive (initial lastUploadedBatchBlock) := by
  have nobody : ∀ inside, HeldBy (initial lastUploadedBatchBlock).tasks inside none := by
    intro inside task
    simp [initial, Inside]
  exact ⟨nobody _, nobody _, nobody _, ⟨none, nobody _, rfl⟩, fun _ => rfl⟩

/-- The flag after a move of a task that neither sets nor clears it. -/
theorem posting_keep (found : state.tasks task = some old) (same : old.posts = moved.posts)
    (posting : ∃ poster, HeldBy state.tasks BlockTask.posts poster ∧
      state.postingBatch = poster.isSome) :
    ∃ poster, HeldBy (Function.update state.tasks task (some moved)) BlockTask.posts poster ∧
      state.postingBatch = poster.isSome := by
  obtain ⟨poster, held, isSet⟩ := posting
  exact ⟨poster, held.keep found same, isSet⟩

/-- What the locks and the flag protect, of a task at some phase. -/
def kind (task : BlockTask) : Bool × Bool × Bool × Bool :=
  (task.holdsBatchState, task.holdsLastUploaded, task.restores, task.posts)

/-- A step that takes and drops no lock, and leaves the flag. -/
theorem Exclusive.stay (exclusive : Exclusive state) (found : state.tasks task = some old)
    (tasks : next.tasks = Function.update state.tasks task (some moved))
    (same : kind old = kind moved)
    (batchStateLock : next.batchStateLock = state.batchStateLock)
    (lastUploadedLock : next.lastUploadedLock = state.lastUploadedLock)
    (postingLock : next.postingLock = state.postingLock)
    (postingBatch : next.postingBatch = state.postingBatch) : Exclusive next := by
  simp only [kind, Prod.mk.injEq] at same
  obtain ⟨sameState, sameCounter, sameRestoring, samePosting⟩ := same
  constructor
  · rw [tasks, batchStateLock]
    exact exclusive.batchState.keep found sameState
  · rw [tasks, lastUploadedLock]
    exact exclusive.lastUploaded.keep found sameCounter
  · rw [tasks, postingLock]
    exact exclusive.restoring.keep found sameRestoring
  · rw [tasks, postingBatch]
    exact posting_keep found samePosting exclusive.posting
  · rw [postingBatch, postingLock]
    exact exclusive.apart

/-- A new task holds nothing. -/
theorem Exclusive.spawn {blockNumber : Nat} (exclusive : Exclusive state)
    (free : state.tasks task = none) :
    Exclusive (state.goto task blockNumber .waitingForRpc) := by
  have outside : ∀ inside, inside ⟨blockNumber, .waitingForRpc⟩ = false →
      (Inside state.tasks inside task ↔ inside ⟨blockNumber, .waitingForRpc⟩ = true) := by
    intro inside isOutside
    rw [Inside, free, isOutside]
    rfl
  obtain ⟨poster, held, isSet⟩ := exclusive.posting
  exact ⟨exclusive.batchState.stay (outside _ rfl), exclusive.lastUploaded.stay (outside _ rfl),
    exclusive.restoring.stay (outside _ rfl), ⟨poster, held.stay (outside _ rfl), isSet⟩,
    exclusive.apart⟩

/-- The task drops the lock of the queue before it got another one. -/
theorem Exclusive.leaveCheck {blockNumber gasPrice : Nat} {exit : Exit}
    (exclusive : Exclusive state)
    (found : state.tasks task = some ⟨blockNumber, .checking gasPrice⟩) :
    Exclusive (state.leaveCheck task blockNumber exit) :=
  ⟨exclusive.batchState.leave found rfl rfl, exclusive.lastUploaded.keep found rfl,
    exclusive.restoring.keep found rfl, posting_keep found rfl exclusive.posting,
    exclusive.apart⟩

/-- The task drops all locks of `extract_batch_if_ready`. -/
theorem Exclusive.leaveExtraction {blockNumber gasPrice : Nat} {exit : Exit} {rest : BatchQueue}
    (exclusive : Exclusive state)
    (found : state.tasks task = some ⟨blockNumber, .waitingForPosting gasPrice⟩) :
    Exclusive ({ state with
      batchStateLock := none, lastUploadedLock := none, batchQueue := rest }.goto task blockNumber
        (.exited exit)) :=
  ⟨exclusive.batchState.leave found rfl rfl, exclusive.lastUploaded.leave found rfl rfl,
    exclusive.restoring.keep found rfl, posting_keep found rfl exclusive.posting,
    exclusive.apart⟩

theorem Exclusive.nobodyPosts (exclusive : Exclusive state) (clear : state.postingBatch = false) :
    HeldBy state.tasks BlockTask.posts none := by
  obtain ⟨poster, held, isSet⟩ := exclusive.posting
  cases poster with
  | none => exact held
  | some poster =>
      rw [clear] at isSet
      cases isSet

theorem exclusive_step (exclusive : Exclusive state)
    (step : Step environment config state label next) : Exclusive next := by
  cases step with
  | spawned free => exact exclusive.spawn free
  | rpcFailed found => exact exclusive.stay found rfl rfl rfl rfl rfl rfl
  | answered found => exact exclusive.stay found rfl rfl rfl rfl rfl rfl
  | entered found free =>
      have batchState := exclusive.batchState
      rw [free] at batchState
      exact ⟨batchState.enter rfl, exclusive.lastUploaded.keep found rfl,
        exclusive.restoring.keep found rfl, posting_keep found rfl exclusive.posting,
        exclusive.apart⟩
  | emptyQueue found => exact exclusive.leaveCheck found
  | @underflowed task blockNumber gasPrice exit found =>
      have left := @Exclusive.leaveCheck _ _ _ _ exit exclusive found
      exact ⟨left.batchState, left.lastUploaded, left.restoring, left.posting, left.apart⟩
  | tooEarly found => exact exclusive.leaveCheck found
  | passed found free =>
      have lastUploaded := exclusive.lastUploaded
      rw [free] at lastUploaded
      exact ⟨exclusive.batchState.keep found rfl, lastUploaded.enter rfl,
        exclusive.restoring.keep found rfl, posting_keep found rfl exclusive.posting,
        exclusive.apart⟩
  | beingPosted found => exact exclusive.leaveExtraction found
  | costTooHigh found => exact exclusive.leaveExtraction found
  | extracted found free notPosting =>
      exact ⟨exclusive.batchState.leave found rfl rfl, exclusive.lastUploaded.leave found rfl rfl,
        exclusive.restoring.keep found rfl,
        ⟨_, (exclusive.nobodyPosts notPosting).enter rfl, rfl⟩, fun _ => free⟩
  | updated found => exact exclusive.stay found rfl rfl rfl rfl rfl rfl
  | notBuilt found => exact exclusive.stay found rfl rfl rfl rfl rfl rfl
  | ended found => exact exclusive.stay found rfl rfl rfl rfl rfl rfl
  | cleared found =>
      obtain ⟨poster, held, -⟩ := exclusive.posting
      refine ⟨exclusive.batchState.keep found rfl, exclusive.lastUploaded.keep found rfl,
        exclusive.restoring.keep found rfl, ⟨none, held.leave found rfl rfl, rfl⟩, ?_⟩
      intro isSet
      cases isSet
  | clearedFailed found free =>
      obtain ⟨poster, held, -⟩ := exclusive.posting
      have restoring := exclusive.restoring
      rw [free] at restoring
      refine ⟨exclusive.batchState.keep found rfl, exclusive.lastUploaded.keep found rfl,
        restoring.enter rfl, ⟨none, held.leave found rfl rfl, rfl⟩, ?_⟩
      intro isSet
      cases isSet
  | restored found => exact exclusive.stay found rfl rfl rfl rfl rfl rfl
  | restoreEnded found =>
      exact ⟨exclusive.batchState.keep found rfl, exclusive.lastUploaded.keep found rfl,
        exclusive.restoring.leave found rfl rfl, posting_keep found rfl exclusive.posting,
        fun _ => rfl⟩
  | queueChanged =>
      exact ⟨exclusive.batchState, exclusive.lastUploaded, exclusive.restoring,
        exclusive.posting, exclusive.apart⟩

/-! ## What became of the batches -/

/-- `finalize_batch` has returned, and a failed batch is back in the queue. -/
def Completed (history : List Event) (task : TaskId) : Prop :=
  .finalized task .succeeded ∈ history ∨ .finalized task .flushed ∈ history ∨
    (.finalized task .failed ∈ history ∧ .restored task ∈ history)

/-- What the history says about a task at some phase. -/
def Told (history : List Event) (task : TaskId) : Phase → Prop
  | .finalized _ result => .finalized task result ∈ history
  | .restoring _ => .finalized task .failed ∈ history
  | .updatingUsers => Completed history task
  | _ => True

structure Recorded (state : State) : Prop where
  told : ∀ {task current}, state.tasks task = some current →
    Told state.history task current.phase
  settled : ∀ {task blockNumber batch}, .extracted task blockNumber batch ∈ state.history →
    Inside state.tasks BlockTask.inFlight task ∨ Completed state.history task

theorem recorded_initial (lastUploadedBatchBlock : Nat) :
    Recorded (initial lastUploadedBatchBlock) := by
  constructor
  · intro task current found
    cases found
  · intro task blockNumber batch extracted
    cases extracted

theorem Completed.mono {history longer : List Event} (completed : Completed history task)
    (subset : history ⊆ longer) : Completed longer task := by
  rcases completed with succeeded | flushed | ⟨failed, restored⟩
  · exact .inl (subset succeeded)
  · exact .inr (.inl (subset flushed))
  · exact .inr (.inr ⟨subset failed, subset restored⟩)

theorem Told.mono {history longer : List Event} {phase : Phase} (told : Told history task phase)
    (subset : history ⊆ longer) : Told longer task phase := by
  cases phase with
  | finalized batch result => exact subset told
  | restoring batch => exact subset told
  | updatingUsers => exact Completed.mono told subset
  | waitingForRpc | waitingForBatchState | checking | waitingForPosting | finalizing | submitting
  | exited => trivial

/-- The step of a task: its phase is told, and it leaves its batch only when
that is completed. -/
theorem Recorded.goto (recorded : Recorded state)
    (tasks : next.tasks = Function.update state.tasks task (some moved))
    (history : state.history ⊆ next.history)
    (extracted : ∀ {other blockNumber batch},
      .extracted other blockNumber batch ∈ next.history →
        .extracted other blockNumber batch ∈ state.history ∨
          (other = task ∧ moved.inFlight = true))
    (told : Told next.history task moved.phase)
    (stays : Inside state.tasks BlockTask.inFlight task →
      moved.inFlight = true ∨ Completed next.history task) : Recorded next := by
  constructor
  · intro other current found
    rw [tasks] at found
    by_cases own : other = task
    · subst own
      rw [Function.update_self, Option.some.injEq] at found
      subst found
      exact told
    · rw [Function.update_of_ne own] at found
      exact (recorded.told found).mono history
  · intro other blockNumber batch isExtracted
    rw [tasks]
    rcases extracted isExtracted with before | ⟨rfl, entered⟩
    · by_cases own : other = task
      · subst own
        rw [inside_update_self]
        rcases recorded.settled before with inFlight | completed
        · exact stays inFlight
        · exact .inr (completed.mono history)
      · rw [inside_update_of_ne own]
        rcases recorded.settled before with inFlight | completed
        · exact .inl inFlight
        · exact .inr (completed.mono history)
    · rw [inside_update_self]
      exact .inl entered

/-- The step of a task that leaves the history as it is. -/
theorem Recorded.silent (recorded : Recorded state)
    (tasks : next.tasks = Function.update state.tasks task (some moved))
    (history : next.history = state.history)
    (told : Told state.history task moved.phase)
    (stays : Inside state.tasks BlockTask.inFlight task →
      moved.inFlight = true ∨ Completed state.history task) : Recorded next := by
  apply recorded.goto tasks
  · rw [history]
    exact List.Subset.refl _
  · intro other blockNumber batch isExtracted
    rw [history] at isExtracted
    exact .inl isExtracted
  · rw [history]
    exact told
  · rw [history]
    exact stays

theorem Recorded.outside (recorded : Recorded state) (found : state.tasks task = some old)
    (tasks : next.tasks = Function.update state.tasks task (some moved))
    (history : next.history = state.history) (was : old.inFlight = false)
    (told : Told state.history task moved.phase) : Recorded next := by
  apply recorded.silent tasks history told
  intro inFlight
  rw [inside_iff found, was] at inFlight
  cases inFlight

/-- The event is the extraction of a batch. -/
def Event.isExtraction : Event → Bool
  | .extracted _ _ _ => true
  | _ => false

theorem extracted_before {history : List Event} {event : Event} {blockNumber : Nat}
    {batch : List BatchQueueEntry} (other : event.isExtraction = false)
    (isExtracted : .extracted task blockNumber batch ∈ history ++ [event]) :
    .extracted task blockNumber batch ∈ history := by
  rcases List.mem_append.mp isExtracted with before | new
  · exact before
  · rw [← List.mem_singleton.mp new] at other
    cases other

/-- The result of `finalize_batch` is written down. -/
theorem Recorded.finalized {blockNumber : Nat} {batch : List BatchQueueEntry}
    {result : Finalization} (recorded : Recorded state) :
    Recorded ((state.goto task blockNumber (.finalized batch result)).record
      (.finalized task result)) := by
  apply recorded.goto rfl
  · exact List.subset_append_left _ _
  · intro other number entries isExtracted
    exact .inl (extracted_before rfl isExtracted)
  · exact List.mem_append_right _ (List.mem_singleton_self _)
  · exact fun _ => .inl rfl

theorem recorded_step (recorded : Recorded state)
    (step : Step environment config state label next) : Recorded next := by
  cases step with
  | spawned free =>
      refine recorded.silent rfl rfl trivial ?_
      intro inFlight
      rw [Inside, free] at inFlight
      cases inFlight
  | rpcFailed found => exact recorded.outside found rfl rfl rfl trivial
  | answered found => exact recorded.outside found rfl rfl rfl trivial
  | entered found => exact recorded.outside found rfl rfl rfl trivial
  | emptyQueue found => exact recorded.outside found rfl rfl rfl trivial
  | underflowed found =>
      refine recorded.goto rfl (List.subset_append_left _ _) ?_ trivial ?_
      · intro other number entries isExtracted
        exact .inl (extracted_before rfl isExtracted)
      · intro inFlight
        rw [inside_iff found] at inFlight
        cases inFlight
  | tooEarly found => exact recorded.outside found rfl rfl rfl trivial
  | passed found => exact recorded.outside found rfl rfl rfl trivial
  | beingPosted found => exact recorded.outside found rfl rfl rfl trivial
  | costTooHigh found => exact recorded.outside found rfl rfl rfl trivial
  | extracted found =>
      refine recorded.goto rfl (List.subset_append_left _ _) ?_ trivial fun _ => .inl rfl
      intro other number entries isExtracted
      rcases List.mem_append.mp isExtracted with before | new
      · exact .inl before
      · cases List.mem_singleton.mp new
        exact .inr ⟨rfl, rfl⟩
  | updated found => exact recorded.silent rfl rfl trivial fun _ => .inl rfl
  | notBuilt found => exact recorded.finalized
  | ended found => exact recorded.finalized
  | @cleared task blockNumber batch result exit found settled =>
      refine recorded.silent rfl rfl trivial ?_
      intro _
      have finalized : Event.finalized task result ∈ state.history := recorded.told found
      cases result with
      | succeeded => exact .inr (.inl finalized)
      | flushed => exact .inr (.inr (.inl finalized))
      | failed => exact absurd rfl settled
  | clearedFailed found =>
      have failed := recorded.told found
      exact recorded.silent rfl rfl failed fun _ => .inl rfl
  | @restored task blockNumber batch batchQueue found =>
      have failed : Event.finalized task .failed ∈ state.history := recorded.told found
      refine recorded.goto rfl (List.subset_append_left _ _) ?_ ?_ fun _ => .inl rfl
      · intro other number entries isExtracted
        exact .inl (extracted_before rfl isExtracted)
      · exact .inr (.inr ⟨List.mem_append_left _ failed,
          List.mem_append_right _ (List.mem_singleton_self _)⟩)
  | restoreEnded found =>
      have completed := recorded.told found
      exact recorded.silent rfl rfl trivial fun _ => .inr completed
  | queueChanged => exact ⟨recorded.told, recorded.settled⟩

/-! ## Runs -/

/-- The extraction of a batch is the only step that writes one down. -/
theorem extraction_step (step : Step environment config state label next)
    {blockNumber : Nat} {batch : List BatchQueueEntry}
    (history : next.history = state.history ++ [.extracted task blockNumber batch]) :
    state.postingBatch = false ∧ state.postingLock = none := by
  have same : ∀ {event : Event}, event.isExtraction = false →
      state.history ++ [event] ≠ state.history ++ [.extracted task blockNumber batch] := by
    intro event isOther equal
    cases List.append_cancel_left equal
    cases isOther
  have longer : state.history ≠ state.history ++ [.extracted task blockNumber batch] := by
    simp
  cases step with
  | extracted found free notPosting => exact ⟨notPosting, free⟩
  | underflowed | notBuilt | ended | restored => exact absurd history (same rfl)
  | spawned | rpcFailed | answered | entered | emptyQueue | tooEarly | passed | beingPosted
  | costTooHigh | updated | cleared | clearedFailed | restoreEnded | queueChanged =>
      exact absurd history longer

theorem exclusive_run {lastUploadedBatchBlock : Nat} {labels : List Label}
    (ran : (machine environment config).run (initial lastUploadedBatchBlock) labels =
      some state) : Exclusive state ∧ Recorded state := by
  constructor
  · refine Machine.run_invariant ?_ (exclusive_initial _) ran
    intro state next label exclusive stepped
    exact exclusive_step exclusive (step_cases stepped)
  · refine Machine.run_invariant ?_ (recorded_initial _) ran
    intro state next label recorded stepped
    exact recorded_step recorded (step_cases stepped)

/-- While the flag is cleared and its lock is free, no batch is in flight. -/
theorem Exclusive.nothingInFlight (exclusive : Exclusive state)
    (clear : state.postingBatch = false) (free : state.postingLock = none) :
    ¬ Inside state.tasks BlockTask.inFlight task := by
  have restoring := exclusive.restoring
  rw [free] at restoring
  intro inFlight
  rw [Inside, Option.any_eq_true] at inFlight
  obtain ⟨current, found, isInFlight⟩ := inFlight
  rw [BlockTask.inFlight, Bool.or_eq_true] at isInFlight
  rcases isInFlight with posts | restores
  · exact (exclusive.nobodyPosts clear).nobody ((inside_iff found).mpr posts)
  · exact restoring.nobody ((inside_iff found).mpr restores)

theorem Exclusive.poster (exclusive : Exclusive state) (isSet : state.postingBatch = true) :
    ∃ task, Inside state.tasks BlockTask.posts task := by
  obtain ⟨poster, held, equation⟩ := exclusive.posting
  rw [isSet] at equation
  obtain ⟨task, rfl⟩ := Option.isSome_iff_exists.mp equation.symm
  exact ⟨task, (held task).mpr rfl⟩

/-- The flag is set, or its lock taken, only for a batch in flight. -/
theorem Exclusive.free (exclusive : Exclusive state)
    (nothing : ∀ other, ¬ Inside state.tasks BlockTask.inFlight other) :
    state.postingBatch = false ∧ state.postingLock = none := by
  constructor
  · by_contra isSet
    obtain ⟨poster, posts⟩ := exclusive.poster (Bool.not_eq_false _ ▸ isSet)
    apply nothing poster
    apply Inside.imp posts
    intro current holds
    rw [BlockTask.inFlight, holds, Bool.true_or]
  · by_contra taken
    obtain ⟨holder, equation⟩ := Option.ne_none_iff_exists'.mp taken
    apply nothing holder
    apply Inside.imp ((exclusive.restoring holder).mpr equation)
    intro current holds
    rw [BlockTask.inFlight, holds, Bool.or_true]

/-- The lock of the counter is only held together with that of the queue. -/
theorem Exclusive.counterFree (exclusive : Exclusive state)
    (unlocked : state.batchStateLock = none) : state.lastUploadedLock = none := by
  by_contra taken
  obtain ⟨holder, equation⟩ := Option.ne_none_iff_exists'.mp taken
  have batchState := exclusive.batchState
  rw [unlocked] at batchState
  apply @HeldBy.nobody _ _ _ _ holder batchState
  apply Inside.imp ((exclusive.lastUploaded holder).mpr equation)
  intro current holds
  rw [BlockTask.holdsLastUploaded] at holds
  rw [BlockTask.holdsBatchState]
  split at holds
  · rename_i phase
    rw [phase]
  · cases holds

/-- A task for a late enough block takes a batch of the queue. -/
theorem can_post {blockNumber gasPrice : Nat} {layout : QueueLayout}
    {batch : List BatchQueueEntry} {rest : BatchQueue}
    (clear : state.postingBatch = false) (free : state.postingLock = none)
    (unlocked : state.batchStateLock = none) (counterFree : state.lastUploadedLock = none)
    (new : state.tasks task = none) (nonempty : state.batchQueue.len ≠ 0)
    (late : state.lastUploadedBatchBlock + config.minBlockInterval ≤ blockNumber)
    (extraction : extractBatchDirectly layout (config.extractionLimits
      (gasPrice * gasPricePercentageMultiplier / percentageDivider)) state.batchQueue =
        (.ok batch, rest)) :
    ∃ next, (machine environment config).run state
        [.spawn task blockNumber, .answer task (some gasPrice), .lockBatchState task,
          .checkInterval task, .lockPosting task layout] = some next ∧
      next.tasks task = some ⟨blockNumber, .finalizing batch⟩ := by
  have notEarly := Nat.not_lt.mpr late
  simp [Machine.run, machine, spawn, new, answer, goto, lockBatchState, unlocked,
    checkInterval, counterFree, nonempty, notEarly, lockPosting, free, clear, extraction, record]

end AlignedLayer.BlockTasks

namespace AlignedLayer

open BlockTasks

/-- A batch is extracted only when every earlier one is completed.  Wherever a
task has exited, the flag is set only for another batch in flight, and without
a batch in flight any task for a late enough block takes the next one. -/
theorem one_batch_in_flight (environment : BlockTasks.Environment) (config : Config)
    (lastUploadedBatchBlock : Nat) (labels : List BlockTasks.Label) (state : BlockTasks.State)
    (ran : (machine environment config).run (initial lastUploadedBatchBlock) labels =
      some state) :
    (∀ label next task blockNumber batch,
      (machine environment config).step state label = some next →
      next.history = state.history ++ [.extracted task blockNumber batch] →
        ∀ other number entries, .extracted other number entries ∈ state.history →
          Completed state.history other) ∧
    (∀ task blockNumber exit, state.tasks task = some ⟨blockNumber, .exited exit⟩ →
      state.postingBatch = false ∨
        ∃ other, other ≠ task ∧ Inside state.tasks BlockTask.posts other) ∧
    ((∀ other, ¬ Inside state.tasks BlockTask.inFlight other) → state.batchStateLock = none →
      ∀ task blockNumber gasPrice layout batch rest, state.tasks task = none →
        state.batchQueue.len ≠ 0 →
        state.lastUploadedBatchBlock + config.minBlockInterval ≤ blockNumber →
        extractBatchDirectly layout (config.extractionLimits
          (gasPrice * gasPricePercentageMultiplier / percentageDivider)) state.batchQueue =
            (.ok batch, rest) →
        ∃ next, (machine environment config).run state
            [.spawn task blockNumber, .answer task (some gasPrice), .lockBatchState task,
              .checkInterval task, .lockPosting task layout] = some next ∧
          next.tasks task = some ⟨blockNumber, .finalizing batch⟩) := by
  obtain ⟨exclusive, recorded⟩ := exclusive_run ran
  refine ⟨?_, ?_, ?_⟩
  · intro label next task blockNumber batch stepped history other number entries extracted
    obtain ⟨clear, free⟩ := extraction_step (step_cases stepped) history
    rcases recorded.settled extracted with inFlight | completed
    · exact absurd inFlight (exclusive.nothingInFlight clear free)
    · exact completed
  · intro task blockNumber exit found
    cases isSet : state.postingBatch with
    | false => exact .inl rfl
    | true =>
        obtain ⟨poster, posts⟩ := exclusive.poster isSet
        refine .inr ⟨poster, ?_, posts⟩
        rintro rfl
        rw [inside_iff found] at posts
        cases posts
  · intro nothing unlocked task blockNumber gasPrice layout batch rest new nonempty late extraction
    obtain ⟨clear, free⟩ := exclusive.free nothing
    exact can_post clear free unlocked (exclusive.counterFree unlocked) new nonempty late extraction

namespace BlockTasks.Sample

open AlignedLayer.Sample

def environment : BlockTasks.Environment :=
  { cborSerializes := fun _ => true
    merkleTree := .reference (VerificationCommitmentBatch.hashData Keccak256.keccak256)
      (VerificationCommitmentBatch.hashNewParent Keccak256.keccak256)
    overflowChecks := false }

def config : Config :=
  { AlignedLayer.Sample.config 10 with minBlockInterval := 5 }

def layout : QueueLayout := Layout.insertion _

def queue : BatchQueue :=
  PriorityQueue.empty.push (entry 1 0 1000000) (entry 1 0 1000000).priority

/-- A task up to the lock of the flag. -/
def reach (task : TaskId) (blockNumber : Nat) : List BlockTasks.Label :=
  [.spawn task blockNumber, .answer task (some 1), .lockBatchState task, .checkInterval task]

/-- The batch of the first task fails and is put back; the second task is
about to take it. -/
def failedBatch : List BlockTasks.Label :=
  .changeQueue queue :: reach 1 10 ++
    [.lockPosting 1 layout, .updateLastUploaded 1, .endFinalization 1 .failed, .clearPosting 1,
      .restore 1 queue, .endRestore 1] ++ reach 2 20

end BlockTasks.Sample

theorem one_batch_in_flight_afterRestore :
    ∃ state, (machine BlockTasks.Sample.environment BlockTasks.Sample.config).run (initial 0) BlockTasks.Sample.failedBatch =
        some state ∧
      .extracted 1 10 [AlignedLayer.Sample.entry 1 0 1000000] ∈ state.history ∧
      Completed state.history 1 := by
  have found : ((machine BlockTasks.Sample.environment BlockTasks.Sample.config).run (initial 0)
      BlockTasks.Sample.failedBatch).any (fun state =>
        decide (.extracted 1 10 [AlignedLayer.Sample.entry 1 0 1000000] ∈ state.history) &&
        ((machine BlockTasks.Sample.environment BlockTasks.Sample.config).step state
          (.lockPosting 2 BlockTasks.Sample.layout)).any (fun next => decide (next.history =
            state.history ++ [.extracted 2 20 [AlignedLayer.Sample.entry 1 0 1000000]]))) =
      true := by
    decide +kernel
  obtain ⟨state, ran, holds⟩ := (Option.any_eq_true _ _).mp found
  rw [Bool.and_eq_true, decide_eq_true_eq, Option.any_eq_true] at holds
  obtain ⟨extracted, next, stepped, history⟩ := holds
  refine ⟨state, ran, extracted, ?_⟩
  exact (one_batch_in_flight _ _ _ _ _ ran).1 _ _ _ _ _ stepped (of_decide_eq_true history) _ _ _
    extracted

end AlignedLayer
