import AlignedLayer.Batcher.Posting

/-!
# The order of the blocks of the batches

`last_uploaded_batch_block` is written by the one task that has a batch in
flight, and its lock is held from the check of the interval to the extraction.
So it never decreases, and the batches keep their distance.  Only the log
message of the check subtracts it from the number of an older block.
-/

namespace AlignedLayer.BlockTasks

open State

/-- The block number of the task, if there is a batch to post, is not below
the counter. -/
def State.notOlder (state : State) : Label → Bool
  | .checkInterval task => (state.tasks task).all fun current =>
      state.batchQueue.len < 1 || state.lastUploadedBatchBlock ≤ current.blockNumber
  | _ => true

def extractedBlock : Event → Option Nat
  | .extracted _ blockNumber _ => some blockNumber
  | _ => none

/-- The blocks of the batches, in the order of their extraction. -/
def extractedBlocks (history : List Event) : List Nat :=
  history.filterMap extractedBlock

variable {environment : Environment} {config : Config} {state next : State} {label : Label}

/-! ## Underflows -/

def Underflowed (history : List Event) : Prop :=
  ∃ task, .underflow task ∈ history

theorem underflowed_append {history : List Event} {event : Event}
    (other : ∀ task, event ≠ .underflow task) :
    Underflowed (history ++ [event]) ↔ Underflowed history := by
  constructor
  · rintro ⟨task, member⟩
    rcases List.mem_append.mp member with before | new
    · exact ⟨task, before⟩
    · exact absurd (List.mem_singleton.mp new).symm (other task)
  · rintro ⟨task, member⟩
    exact ⟨task, List.mem_append_left _ member⟩

/-- A step underflows exactly when it is not guarded. -/
theorem underflowed_step (step : Step environment config state label next) :
    Underflowed next.history ↔
      Underflowed state.history ∨ ¬ state.notOlder label = true := by
  have silent : state.notOlder label = true → next.history = state.history →
      (Underflowed next.history ↔
        Underflowed state.history ∨ ¬ state.notOlder label = true) := by
    intro guarded same
    rw [same, guarded]
    simp
  cases step with
  | spawned | rpcFailed | answered | entered | beingPosted | costTooHigh | updated | cleared
  | clearedFailed | restoreEnded | queueChanged => exact silent rfl rfl
  | emptyQueue found empty =>
      exact silent (by simp [notOlder, found, empty]) rfl
  | tooEarly found notOlder =>
      exact silent (by simp [State.notOlder, found, Nat.not_lt.mp notOlder]) rfl
  | passed found free late =>
      have notOlder := Nat.le_trans (Nat.le_add_right _ _) late
      exact silent (by simp [State.notOlder, found, notOlder]) rfl
  | @underflowed task blockNumber gasPrice exit found nonempty older =>
      constructor
      · intro _
        right
        simp [notOlder, found, older, nonempty]
      · intro _
        exact ⟨task, List.mem_append_right _ (List.mem_singleton_self _)⟩
  | extracted | notBuilt | ended | restored =>
      refine (underflowed_append ?_).trans ?_
      · intro task same
        cases same
      · simp [State.notOlder, goto]

theorem underflowed_run {start : State} {labels : List Label}
    (ran : (machine environment config).run start labels = some state) :
    Underflowed state.history ↔ Underflowed start.history ∨
      ¬ (machine environment config).Meets (fun state label => state.notOlder label = true)
        start labels := by
  induction labels generalizing start with
  | nil =>
      simp only [Machine.run, Option.some.injEq] at ran
      subst state
      simp [Machine.Meets]
  | cons label labels induction =>
      obtain ⟨middle, stepped, rest⟩ := Option.bind_eq_some_iff.mp ran
      rw [induction rest, underflowed_step (step_cases stepped), Machine.Meets, or_assoc,
        ← Classical.not_and_iff_not_or_not]
      simp only [stepped, Option.some.injEq, forall_eq']

/-! ## The counter -/

/-- The other crates do what they document: a batch is always serialized, and
has a Merkle tree unless it is empty. -/
structure Environment.Documented (keccak : Bytes → Bytes32) (environment : Environment) :
    Prop where
  serializes : ∀ data, environment.cborSerializes data = true
  merkleTree : environment.merkleTree.Documented (VerificationCommitmentBatch.hashData keccak)
    (VerificationCommitmentBatch.hashNewParent keccak)

theorem Environment.Documented.builds {keccak : Bytes → Bytes32}
    (documented : environment.Documented keccak) {leaves : List VerificationDataCommitment}
    (nonempty : leaves ≠ []) : (environment.merkleTree.build leaves).isSome = true := by
  obtain ⟨first, rest, rfl⟩ := List.exists_cons_of_ne_nil nonempty
  obtain ⟨path, -, isRoot⟩ := @MerkleTree.root_eq_climb _
    (VerificationCommitmentBatch.hashNewParent keccak)
    ((first :: rest).map (VerificationCommitmentBatch.hashData keccak)) 0
    (VerificationCommitmentBatch.hashData keccak first) rfl
  rw [documented.merkleTree.build, isRoot]
  rfl

/-- A task that waits for the flag, or is about to write the counter, is far
enough above it. -/
def Late (lastUploadedBatchBlock minBlockInterval : Nat) (task : BlockTask) : Prop :=
  match task.phase with
  | .waitingForPosting _ => lastUploadedBatchBlock + minBlockInterval ≤ task.blockNumber
  | .finalizing batch =>
      lastUploadedBatchBlock + minBlockInterval ≤ task.blockNumber ∧ batch ≠ []
  | _ => True

def isFinalizing (task : BlockTask) : Bool :=
  match task.phase with
  | .finalizing _ => true
  | _ => false

theorem posts_of_isFinalizing {task : BlockTask} (finalizing : isFinalizing task = true) :
    task.posts = true := by
  rw [isFinalizing] at finalizing
  rw [BlockTask.posts]
  split at finalizing
  · rename_i entries phase
    rw [phase]
  · cases finalizing

/-- The blocks of the batches keep their distance, and all but the one that is
about to write the counter are below it. -/
structure Spaced (minBlockInterval : Nat) (state : State) : Prop where
  late : ∀ {task current}, state.tasks task = some current →
    Late state.lastUploadedBatchBlock minBlockInterval current
  below : ∀ {task blockNumber batch}, .extracted task blockNumber batch ∈ state.history →
    blockNumber ≤ state.lastUploadedBatchBlock ∨
      ∃ current, state.tasks task = some current ∧ isFinalizing current = true ∧
        current.blockNumber = blockNumber
  spaced : (extractedBlocks state.history).Pairwise fun earlier later =>
    earlier + minBlockInterval ≤ later

theorem spaced_initial (minBlockInterval lastUploadedBatchBlock : Nat) :
    Spaced minBlockInterval (initial lastUploadedBatchBlock) := by
  constructor
  · intro task current found
    cases found
  · intro task blockNumber batch extracted
    cases extracted
  · exact List.Pairwise.nil

theorem mem_extractedBlocks {history : List Event} {blockNumber : Nat}
    (member : blockNumber ∈ extractedBlocks history) :
    ∃ task batch, .extracted task blockNumber batch ∈ history := by
  obtain ⟨event, eventMember, isBlock⟩ := List.mem_filterMap.mp member
  cases event with
  | extracted task number batch =>
      cases isBlock
      exact ⟨task, batch, eventMember⟩
  | finalized | restored | underflow => cases isBlock

variable {minBlockInterval : Nat} {task : TaskId} {moved : BlockTask}

/-- The step of a task that leaves the counter, and extracts nothing. -/
theorem Spaced.goto (spaced : Spaced minBlockInterval state) {later : List Event}
    (wasNotFinalizing : ∀ {old}, state.tasks task = some old → isFinalizing old = false)
    (tasks : next.tasks = Function.update state.tasks task (some moved))
    (late : Late state.lastUploadedBatchBlock minBlockInterval moved)
    (counter : next.lastUploadedBatchBlock = state.lastUploadedBatchBlock)
    (history : next.history = state.history ++ later)
    (silent : later.all fun event => !event.isExtraction) : Spaced minBlockInterval next := by
  constructor
  · intro other current found
    rw [tasks] at found
    rw [counter]
    by_cases own : other = task
    · subst own
      rw [Function.update_self, Option.some.injEq] at found
      subst found
      exact late
    · rw [Function.update_of_ne own] at found
      exact spaced.late found
  · intro other blockNumber batch extracted
    rw [history] at extracted
    rw [counter, tasks]
    rcases List.mem_append.mp extracted with before | new
    · rcases spaced.below before with below | ⟨current, found, finalizing, number⟩
      · exact .inl below
      · right
        have own : other ≠ task := by
          rintro rfl
          rw [wasNotFinalizing found] at finalizing
          cases finalizing
        exact ⟨current, by rwa [Function.update_of_ne own], finalizing, number⟩
    · cases List.all_eq_true.mp silent _ new
  · have nothing : extractedBlocks later = [] := by
      rw [extractedBlocks, List.filterMap_eq_nil_iff]
      intro event member
      have other := List.all_eq_true.mp silent event member
      cases event with
      | extracted => cases other
      | finalized | restored | underflow => rfl
    rw [history, extractedBlocks, List.filterMap_append]
    rw [extractedBlocks] at nothing
    rw [nothing, List.append_nil]
    exact spaced.spaced

theorem Spaced.move (spaced : Spaced minBlockInterval state) {old : BlockTask}
    (found : state.tasks task = some old) {later : List Event}
    (tasks : next.tasks = Function.update state.tasks task (some moved))
    (was : isFinalizing old = false)
    (late : Late state.lastUploadedBatchBlock minBlockInterval moved)
    (counter : next.lastUploadedBatchBlock = state.lastUploadedBatchBlock)
    (history : next.history = state.history ++ later)
    (silent : later.all fun event => !event.isExtraction) : Spaced minBlockInterval next := by
  refine spaced.goto ?_ tasks late counter history silent
  intro other otherFound
  rw [found, Option.some.injEq] at otherFound
  exact otherFound ▸ was

/-- A step of a task that writes nothing down. -/
theorem Spaced.quiet (spaced : Spaced minBlockInterval state) {old : BlockTask}
    (found : state.tasks task = some old)
    (tasks : next.tasks = Function.update state.tasks task (some moved))
    (was : isFinalizing old = false)
    (late : Late state.lastUploadedBatchBlock minBlockInterval moved)
    (counter : next.lastUploadedBatchBlock = state.lastUploadedBatchBlock)
    (history : next.history = state.history) : Spaced minBlockInterval next :=
  spaced.move found tasks was late counter (history.trans (List.append_nil _).symm) rfl

/-- The counter is written by the only task with a batch in flight, and never
while another one waits with the lock of the counter. -/
theorem Spaced.updated {blockNumber : Nat} {batch : List BatchQueueEntry}
    (spaced : Spaced minBlockInterval state) (exclusive : Exclusive state)
    (found : state.tasks task = some ⟨blockNumber, .finalizing batch⟩)
    (free : state.lastUploadedLock = none) :
    Spaced minBlockInterval { state.goto task blockNumber (.submitting batch) with
      lastUploadedBatchBlock := blockNumber } := by
  obtain ⟨poster, posts, -⟩ := exclusive.posting
  have lastUploaded := exclusive.lastUploaded
  rw [free] at lastUploaded
  have own := (inside_iff found).mpr (show BlockTask.posts ⟨blockNumber, .finalizing batch⟩ from rfl)
  obtain ⟨above, nonempty⟩ := spaced.late found
  constructor
  · intro other current otherFound
    by_cases same : other = task
    · subst same
      simp only [State.goto, Function.update_self, Option.some.injEq] at otherFound
      subst otherFound
      trivial
    · simp only [State.goto, Function.update_of_ne same] at otherFound
      rw [Late]
      split
      · rename_i gasPrice waiting
        have holds : current.holdsLastUploaded = true := by
          rw [BlockTask.holdsLastUploaded, waiting]
        exact absurd ((inside_iff otherFound).mpr holds) lastUploaded.nobody
      · rename_i entries finalizing
        have alsoPosts : current.posts = true := by
          rw [BlockTask.posts, finalizing]
        exact absurd (posts.unique ((inside_iff otherFound).mpr alsoPosts) own) same
      · trivial
  · intro other number entries extracted
    left
    rcases spaced.below extracted with below | ⟨current, otherFound, finalizing, rfl⟩
    · exact below.trans ((Nat.le_add_right _ _).trans above)
    · have alsoPosts := posts_of_isFinalizing finalizing
      have same := posts.unique ((inside_iff otherFound).mpr alsoPosts) own
      subst same
      rw [found, Option.some.injEq] at otherFound
      rw [← otherFound]
  · exact spaced.spaced

/-- A batch is extracted for a block that is far enough above the counter, and
so above all batches before it. -/
theorem Spaced.extracted {blockNumber gasPrice : Nat} {batch : List BatchQueueEntry}
    (spaced : Spaced minBlockInterval state) (exclusive : Exclusive state)
    (found : state.tasks task = some ⟨blockNumber, .waitingForPosting gasPrice⟩)
    (notPosting : state.postingBatch = false) (nonempty : batch ≠ [])
    (tasks : next.tasks = Function.update state.tasks task
      (some ⟨blockNumber, .finalizing batch⟩))
    (counter : next.lastUploadedBatchBlock = state.lastUploadedBatchBlock)
    (history : next.history = state.history ++ [.extracted task blockNumber batch]) :
    Spaced minBlockInterval next := by
  have late := spaced.late found
  have below : ∀ {other number entries}, .extracted other number entries ∈ state.history →
      number ≤ state.lastUploadedBatchBlock := by
    intro other number entries extracted
    rcases spaced.below extracted with below | ⟨current, otherFound, finalizing, rfl⟩
    · exact below
    · have alsoPosts := posts_of_isFinalizing finalizing
      exact absurd ((inside_iff otherFound).mpr alsoPosts)
        (exclusive.nobodyPosts notPosting).nobody
  constructor
  · intro other current otherFound
    rw [tasks] at otherFound
    rw [counter]
    by_cases same : other = task
    · subst same
      rw [Function.update_self, Option.some.injEq] at otherFound
      subst otherFound
      exact ⟨late, nonempty⟩
    · rw [Function.update_of_ne same] at otherFound
      exact spaced.late otherFound
  · intro other number entries extracted
    rw [history] at extracted
    rw [counter, tasks]
    rcases List.mem_append.mp extracted with before | new
    · exact .inl (below before)
    · cases List.mem_singleton.mp new
      exact .inr ⟨_, Function.update_self _ _ _, rfl, rfl⟩
  · have blocks : extractedBlocks next.history =
        extractedBlocks state.history ++ [blockNumber] := by
      rw [history, extractedBlocks, List.filterMap_append]
      rfl
    rw [blocks, List.pairwise_append]
    refine ⟨spaced.spaced, List.pairwise_singleton _ _, ?_⟩
    intro earlier member later isLater
    obtain ⟨other, entries, extracted⟩ := mem_extractedBlocks member
    rw [List.mem_singleton.mp isLater]
    exact (Nat.add_le_add_right (below extracted) _).trans late

theorem spaced_step {keccak : Bytes → Bytes32} (documented : environment.Documented keccak)
    (exclusive : Exclusive state) (spaced : Spaced config.minBlockInterval state)
    (step : Step environment config state label next) :
    Spaced config.minBlockInterval next := by
  cases step with
  | spawned free =>
      refine spaced.goto ?_ rfl trivial rfl (List.append_nil _).symm rfl
      intro old found
      rw [free] at found
      cases found
  | rpcFailed found => exact spaced.quiet found rfl rfl trivial rfl rfl
  | answered found => exact spaced.quiet found rfl rfl trivial rfl rfl
  | entered found => exact spaced.quiet found rfl rfl trivial rfl rfl
  | emptyQueue found => exact spaced.quiet found rfl rfl trivial rfl rfl
  | underflowed found => exact spaced.move found rfl rfl trivial rfl rfl rfl
  | tooEarly found => exact spaced.quiet found rfl rfl trivial rfl rfl
  | passed found free late => exact spaced.quiet found rfl rfl late rfl rfl
  | beingPosted found => exact spaced.quiet found rfl rfl trivial rfl rfl
  | costTooHigh found => exact spaced.quiet found rfl rfl trivial rfl rfl
  | extracted found free notPosting nonempty =>
      exact spaced.extracted exclusive found notPosting nonempty rfl rfl rfl
  | updated found free => exact spaced.updated exclusive found free
  | notBuilt found refused =>
      have nonempty := (spaced.late found).2
      refine absurd ⟨documented.serializes _, documented.builds ?_⟩ refused
      exact fun empty => nonempty (List.map_eq_nil_iff.mp empty)
  | ended found => exact spaced.move found rfl rfl trivial rfl rfl rfl
  | cleared found => exact spaced.quiet found rfl rfl trivial rfl rfl
  | clearedFailed found => exact spaced.quiet found rfl rfl trivial rfl rfl
  | restored found => exact spaced.move found rfl rfl trivial rfl rfl rfl
  | restoreEnded found => exact spaced.quiet found rfl rfl trivial rfl rfl
  | queueChanged => exact ⟨spaced.late, spaced.below, spaced.spaced⟩

theorem spaced_run {keccak : Bytes → Bytes32} (documented : environment.Documented keccak)
    {lastUploadedBatchBlock : Nat} {labels : List Label}
    (ran : (machine environment config).run (initial lastUploadedBatchBlock) labels =
      some state) : Exclusive state ∧ Spaced config.minBlockInterval state := by
  refine @Machine.run_invariant _ _ (machine environment config)
    (fun state => Exclusive state ∧ Spaced config.minBlockInterval state) ?_ _ _ _
    ⟨exclusive_initial _, spaced_initial _ _⟩ ran
  intro state next label invariant stepped
  have step := step_cases stepped
  exact ⟨exclusive_step invariant.1 step,
    spaced_step documented invariant.1 invariant.2 step⟩

theorem counter_step (spaced : Spaced config.minBlockInterval state)
    (step : Step environment config state label next) :
    state.lastUploadedBatchBlock ≤ next.lastUploadedBatchBlock := by
  cases step with
  | updated found => exact (Nat.le_add_right _ _).trans (spaced.late found).1
  | _ => exact Nat.le_refl _

theorem counter_run {keccak : Bytes → Bytes32} (documented : environment.Documented keccak)
    {lastUploadedBatchBlock : Nat} {before after : List Label} {middle : State}
    (reached : (machine environment config).run (initial lastUploadedBatchBlock) before =
      some middle)
    (ran : (machine environment config).run middle after = some state) :
    middle.lastUploadedBatchBlock ≤ state.lastUploadedBatchBlock := by
  induction after generalizing before middle with
  | nil =>
      simp only [Machine.run, Option.some.injEq] at ran
      subst state
      exact Nat.le_refl _
  | cons label labels induction =>
      obtain ⟨next, stepped, rest⟩ := Option.bind_eq_some_iff.mp ran
      have grows := counter_step (spaced_run documented reached).2 (step_cases stepped)
      have reachedNext : (machine environment config).run (initial lastUploadedBatchBlock)
          (before ++ [label]) = some next := by
        rw [Machine.run_append, reached]
        simp only [Option.bind_some, Machine.run, stepped]
      exact grows.trans (induction reachedNext rest)

end AlignedLayer.BlockTasks

namespace AlignedLayer

open BlockTasks

/-- In every run the counter never decreases and the batches keep their
distance; and nothing underflows, exactly if no task checks the interval for
a block below the counter. -/
theorem batch_blocks_monotone_iff (keccak : Bytes → Bytes32)
    (environment : BlockTasks.Environment) (documented : environment.Documented keccak)
    (config : Config) (lastUploadedBatchBlock : Nat) (labels : List BlockTasks.Label)
    (state : BlockTasks.State)
    (ran : (machine environment config).run (initial lastUploadedBatchBlock) labels =
      some state) :
    ((∀ before after middle, labels = before ++ after →
        (machine environment config).run (initial lastUploadedBatchBlock) before =
          some middle →
        middle.lastUploadedBatchBlock ≤ state.lastUploadedBatchBlock) ∧
      ((extractedBlocks state.history).Pairwise fun earlier later =>
        earlier + config.minBlockInterval ≤ later) ∧
      ¬ Underflowed state.history) ↔
    (machine environment config).Meets (fun state label => state.notOlder label = true)
      (initial lastUploadedBatchBlock) labels := by
  have underflowed := underflowed_run ran
  have fresh : ¬ Underflowed (initial lastUploadedBatchBlock).history := by
    rintro ⟨task, member⟩
    cases member
  constructor
  · rintro ⟨-, -, none⟩
    by_contra unmet
    exact none (underflowed.mpr (.inr unmet))
  · intro meets
    refine ⟨?_, (spaced_run documented ran).2.spaced, ?_⟩
    · rintro before after middle rfl reached
      rw [Machine.run_append, reached, Option.bind_some] at ran
      exact counter_run documented reached ran
    · intro happened
      rcases underflowed.mp happened with before | unmet
      · exact fresh before
      · exact unmet meets

theorem batch_blocks_monotone_iff_twoBatches :
    ∃ state, (machine BlockTasks.Sample.environment BlockTasks.Sample.config).run (initial 0)
        (BlockTasks.Sample.failedBatch ++ [.lockPosting 2 BlockTasks.Sample.layout]) =
          some state ∧
      extractedBlocks state.history = [10, 20] ∧ ¬ Underflowed state.history := by
  have found : ((machine BlockTasks.Sample.environment BlockTasks.Sample.config).run (initial 0)
      (BlockTasks.Sample.failedBatch ++ [.lockPosting 2 BlockTasks.Sample.layout])).any
        (fun state => decide (extractedBlocks state.history = [10, 20])) = true := by
    decide +kernel
  obtain ⟨state, ran, blocks⟩ := (Option.any_eq_true _ _).mp found
  refine ⟨state, ran, of_decide_eq_true blocks, ?_⟩
  exact ((batch_blocks_monotone_iff Keccak256.keccak256 _
    ⟨fun _ => rfl, MerkleTreeCrate.reference_documented _ _⟩ _ _ _ _ ran).mpr
      (by decide +kernel)).2.2

/-- The task of block 10 waits for the gas price until the batch of block 20 is
being posted and another proof is queued. -/
def BlockTasks.Sample.overtaken : List BlockTasks.Label :=
  [.changeQueue Sample.queue, .spawn 1 10] ++ Sample.reach 2 20 ++
    [.lockPosting 2 Sample.layout, .updateLastUploaded 2, .changeQueue Sample.queue,
      .answer 1 (some 1), .lockBatchState 1, .checkInterval 1]

theorem overtaken_task_underflows :
    ∃ state, (machine BlockTasks.Sample.environment BlockTasks.Sample.config).run (initial 0)
        BlockTasks.Sample.overtaken = some state ∧ .underflow 1 ∈ state.history := by
  have found : ((machine BlockTasks.Sample.environment BlockTasks.Sample.config).run (initial 0)
      BlockTasks.Sample.overtaken).any (fun state => decide (.underflow 1 ∈ state.history)) =
        true := by
    decide +kernel
  obtain ⟨state, ran, underflow⟩ := (Option.any_eq_true _ _).mp found
  exact ⟨state, ran, of_decide_eq_true underflow⟩

end AlignedLayer
