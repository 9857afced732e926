import AlignedLayer.Library.GuardedRuns
import AlignedLayer.Library.Keccak256
import AlignedLayer.Operator.LastProcessedBatch

/-!
# Batches in work when the operator ends

What a new process asks for covers the batches that an earlier one has left,
as long as a block is stored only when no batch in work lies too far behind it.
-/

namespace AlignedLayer.Operator.Restarts

section

variable (keccak : Bytes → Bytes32)

/-- Nobody has responded to the batch, and no process has come to its end with it. -/
structure Unfinished (restarts : Restarts) (log : NewBatchLog) : Prop where
  logged : log ∈ restarts.logs
  unfinished : log ∉ restarts.finished
  notResponded : restarts.responded
    (Aggregator.batchIdentifierHash keccak log.batchMerkleRoot log.senderAddress) = false

/-- Once a block is stored, a process that starts now asks for every batch that
is not finished. -/
def NothingLost (restarts : Restarts) : Prop :=
  restarts.file = .missing ∨
    ∃ process, newOperatorFromConfig restarts.file = some process ∧
      ∀ log, restarts.Unfinished keccak log →
        ∃ fromBlock, missedFromBlock process.lastProcessedBatch = some fromBlock ∧
          log ∈ restarts.getNotRespondedTasksFrom keccak fromBlock

/-- A block is stored whole, and no unfinished batch is too far behind it. -/
def WithinOffset (restarts : Restarts) : Label → Prop
  | .batchProcessed position write =>
      ∀ process log, restarts.process = some process → process.sending[position]? = some log →
        process.lastProcessedBatch ≤ log.blockNumber % blockNumberLimit →
        write ≠ .cutShort ∧
          (write = .written → ∀ other, restarts.Unfinished keccak other →
            log.blockNumber % blockNumberLimit ≤ other.blockNumber + unverifiedBatchOffset)
  | _ => True

end

variable {keccak : Bytes → Bytes32} {restarts next : Restarts} {label : Label}

/-! ## What a step can do -/

inductive Change (keccak : Bytes → Bytes32) (restarts : Restarts) : Label → Restarts → Prop where
  | logs {log : NewBatchLog} (ordered : restarts.blockNumber ≤ log.blockNumber)
      (positive : 0 < log.blockNumber) (bound : log.blockNumber < blockNumberLimit) :
      Change keccak restarts (.newBatch log)
        { restarts with logs := restarts.logs ++ [log], blockNumber := log.blockNumber }
  | responds (identifierHash : Bytes32) :
      Change keccak restarts (.respond identifierHash)
        { restarts with responded := Function.update restarts.responded identifierHash true }
  | starts {process : Process} (ended : restarts.process = none)
      (started : newOperatorFromConfig restarts.file = some process) :
      Change keccak restarts .start { restarts with process := some process }
  | stops : Change keccak restarts .stop { restarts with process := none }
  /-- A step of the process that leaves its last processed batch. -/
  | works {label : Label} {process later : Process} {finished verified : List NewBatchLog}
      (running : restarts.process = some process)
      (same : later.lastProcessedBatch = process.lastProcessedBatch)
      (handling : ∀ log ∈ later.handling, log ∈ process.handling ∨ log ∈ restarts.logs)
      (sending : ∀ log ∈ later.sending,
        log ∈ process.sending ∨ log ∈ process.handling ∧ log ∈ verified)
      (kept : restarts.finished ⊆ finished) (keptVerified : restarts.verified ⊆ verified)
      (within : restarts.WithinOffset keccak label) :
      Change keccak restarts label
        { restarts with process := some later, finished := finished, verified := verified }
  | stores {position : Nat} {write : Write} {process : Process} {log : NewBatchLog}
      (running : restarts.process = some process)
      (found : process.sending[position]? = some log)
      (newest : process.lastProcessedBatch ≤ log.blockNumber % blockNumberLimit) :
      Change keccak restarts (.batchProcessed position write)
        { restarts with
          file :=
            match write with
            | .written => .holds (log.blockNumber % blockNumberLimit)
            | .notOpened => restarts.file
            | .cutShort => .torn
          process := some { process with
            lastProcessedBatch := log.blockNumber % blockNumberLimit
            sending := process.sending.eraseIdx position } }

theorem mem_getNotRespondedTasksFrom {fromBlock : Nat} {log : NewBatchLog} :
    log ∈ restarts.getNotRespondedTasksFrom keccak fromBlock ↔
      log ∈ restarts.logs ∧ fromBlock ≤ log.blockNumber ∧
        restarts.responded
          (Aggregator.batchIdentifierHash keccak log.batchMerkleRoot log.senderAddress) = false := by
  rw [getNotRespondedTasksFrom, List.mem_filter, Bool.and_eq_true, decide_eq_true_eq,
    Bool.not_eq_true']

theorem processStep_cases {process : Process} (running : restarts.process = some process)
    (stepped : restarts.processStep keccak process label = some next) :
    Change keccak restarts label next := by
  cases label with
  | newBatch | respond | start | stop => cases stepped
  | receive position =>
      obtain ⟨log, found, rfl⟩ := Option.map_eq_some_iff.mp stepped
      apply Change.works running
      case same => rfl
      case handling =>
        intro other member
        rcases List.mem_append.mp member with earlier | here
        · exact .inl earlier
        · rw [List.mem_singleton.mp here]
          exact .inr (List.mem_of_getElem? found)
      case sending =>
        intro other member
        exact .inl member
      case kept => exact List.Subset.refl _
      case keptVerified => exact List.Subset.refl _
      case within => trivial
  | handled position succeeded =>
      obtain ⟨log, found, rfl⟩ := Option.map_eq_some_iff.mp stepped
      have handled : log ∈ process.handling := List.mem_of_getElem? found
      apply Change.works running
      case same => rfl
      case handling =>
        intro other member
        exact .inl (List.mem_of_mem_eraseIdx member)
      case sending =>
        intro other member
        cases succeeded with
        | false => exact .inl member
        | true =>
            rcases List.mem_append.mp member with earlier | here
            · exact .inl earlier
            · rw [List.mem_singleton.mp here]
              exact .inr ⟨handled, List.mem_append_right _ List.mem_cons_self⟩
      case kept => exact List.subset_append_left _ _
      case keptVerified =>
        cases succeeded with
        | false => exact List.Subset.refl _
        | true => exact List.subset_append_left _ _
      case within => trivial
  | batchProcessed position write =>
      obtain ⟨log, found, rfl⟩ := Option.map_eq_some_iff.mp stepped
      by_cases older : log.blockNumber % blockNumberLimit < process.lastProcessedBatch
      · simp only [updateLastProcessBatch, if_pos older]
        apply Change.works running
        case same => rfl
        case handling =>
          intro other member
          exact .inl member
        case sending =>
          intro other member
          exact .inl (List.mem_of_mem_eraseIdx member)
        case kept => exact List.Subset.refl _
        case keptVerified => exact List.Subset.refl _
        case within =>
          intro otherProcess other isRunning isFound newest
          rw [running, Option.some.injEq] at isRunning
          subst otherProcess
          rw [found, Option.some.injEq] at isFound
          subst other
          exact absurd older (Nat.not_lt.mpr newest)
      · simp only [updateLastProcessBatch, if_neg older]
        exact .stores running found (Nat.le_of_not_lt older)
  | askMissed =>
      simp only [processStep] at stepped
      split at stepped
      case isTrue =>
        cases stepped
        apply Change.works running
        case same => rfl
        case handling =>
          intro other member
          exact .inl member
        case sending =>
          intro other member
          exact .inl member
        case kept => exact List.Subset.refl _
        case keptVerified => exact List.Subset.refl _
        case within => trivial
      case isFalse => cases stepped
  | answerMissed answered =>
      simp only [processStep] at stepped
      split at stepped
      case h_1 fromBlock asked =>
        cases stepped
        apply Change.works running
        case same => rfl
        case handling =>
          intro other member
          cases answered with
          | false => exact .inl member
          | true =>
              rcases List.mem_append.mp member with earlier | missed
              · exact .inl earlier
              · exact .inr (mem_getNotRespondedTasksFrom.mp missed).1
        case sending =>
          intro other member
          exact .inl member
        case kept => exact List.Subset.refl _
        case keptVerified => exact List.Subset.refl _
        case within => trivial
      case h_2 => cases stepped

theorem step_cases (stepped : step keccak restarts label = some next) :
    Change keccak restarts label next := by
  have works (label : Label)
      (stepped : (restarts.process.bind fun process => restarts.processStep keccak process label) =
        some next) : Change keccak restarts label next := by
    obtain ⟨process, running, moved⟩ := Option.bind_eq_some_iff.mp stepped
    exact processStep_cases running moved
  cases label with
  | newBatch log =>
      simp only [step] at stepped
      split at stepped
      case isTrue allowed =>
        cases stepped
        exact .logs allowed.1 allowed.2.1 allowed.2.2
      case isFalse => cases stepped
  | respond identifierHash =>
      cases stepped
      exact .responds identifierHash
  | start =>
      simp only [step] at stepped
      split at stepped
      case isTrue => cases stepped
      case isFalse ended =>
        obtain ⟨process, started, rfl⟩ := Option.map_eq_some_iff.mp stepped
        exact .starts (Option.not_isSome_iff_eq_none.mp ended) started
  | stop =>
      obtain ⟨process, running, rfl⟩ := Option.map_eq_some_iff.mp stepped
      exact .stops
  | receive position => exact works _ stepped
  | handled position succeeded => exact works _ stepped
  | batchProcessed position write => exact works _ stepped
  | askMissed => exact works _ stepped
  | answerMissed answered => exact works _ stepped

/-! ## Blocks of the chain -/

/-- Everything the operator knows of was logged, and no block it stores lies
ahead of the chain. -/
structure Recorded (restarts : Restarts) : Prop where
  logs : ∀ log ∈ restarts.logs, 0 < log.blockNumber ∧ log.blockNumber < blockNumberLimit ∧
    log.blockNumber ≤ restarts.blockNumber
  file : ∀ blockNumber, restarts.file = .holds blockNumber →
    0 < blockNumber ∧ blockNumber ≤ restarts.blockNumber ∧
      ∃ log ∈ restarts.verified, log.blockNumber = blockNumber
  process : ∀ process, restarts.process = some process →
    (∀ log ∈ process.handling, log ∈ restarts.logs) ∧
      (∀ log ∈ process.sending, log ∈ restarts.logs ∧ log ∈ restarts.verified) ∧
      process.lastProcessedBatch ≤ restarts.blockNumber ∧
      ∀ blockNumber, restarts.file = .holds blockNumber →
        blockNumber ≤ process.lastProcessedBatch

theorem recorded_new : new.Recorded where
  logs _ member := by cases member
  file _ held := by cases held
  process _ running := by cases running

theorem Recorded.blockNumber_mod (recorded : restarts.Recorded) {log : NewBatchLog}
    (logged : log ∈ restarts.logs) :
    log.blockNumber % blockNumberLimit = log.blockNumber :=
  Nat.mod_eq_of_lt (recorded.logs log logged).2.1

/-- A process starts with the block that is stored. -/
theorem newOperatorFromConfig_cases {file : LogFile} {process : Process}
    (started : newOperatorFromConfig file = some process) :
    process.handling = [] ∧ process.sending = [] ∧
      (file = .missing ∧ process.lastProcessedBatch = 0 ∨
        file = .holds process.lastProcessedBatch) := by
  obtain ⟨lastProcessedBatch, loaded, rfl⟩ := Option.map_eq_some_iff.mp started
  cases file with
  | missing =>
      cases loaded
      exact ⟨rfl, rfl, .inl ⟨rfl, rfl⟩⟩
  | torn => cases loaded
  | holds blockNumber =>
      cases loaded
      exact ⟨rfl, rfl, .inr rfl⟩

theorem Recorded.step (recorded : restarts.Recorded)
    (stepped : Restarts.step keccak restarts label = some next) : next.Recorded := by
  cases step_cases stepped with
  | @logs log ordered positive bound =>
      constructor
      · intro other member
        rcases List.mem_append.mp member with earlier | here
        · obtain ⟨otherPositive, otherBound, otherOrdered⟩ := recorded.logs other earlier
          exact ⟨otherPositive, otherBound, Nat.le_trans otherOrdered ordered⟩
        · rw [List.mem_singleton.mp here]
          exact ⟨positive, bound, Nat.le_refl _⟩
      · intro blockNumber held
        obtain ⟨heldPositive, heldOrdered, source⟩ := recorded.file blockNumber held
        exact ⟨heldPositive, Nat.le_trans heldOrdered ordered, source⟩
      · intro process running
        obtain ⟨handling, sending, last, newest⟩ := recorded.process process running
        refine ⟨?_, ?_, Nat.le_trans last ordered, newest⟩
        · intro other member
          exact List.mem_append_left _ (handling other member)
        · intro other member
          exact ⟨List.mem_append_left _ (sending other member).1, (sending other member).2⟩
  | responds =>
      obtain ⟨logs, file, process⟩ := recorded
      exact ⟨logs, file, process⟩
  | starts ended started =>
      obtain ⟨noHandling, noSending, loaded⟩ := newOperatorFromConfig_cases started
      refine ⟨recorded.logs, recorded.file, ?_⟩
      intro process running
      rw [Option.some.injEq] at running
      subst process
      refine ⟨?_, ?_, ?_⟩
      · intro other member
        rw [noHandling] at member
        cases member
      · intro other member
        rw [noSending] at member
        cases member
      · rcases loaded with ⟨missing, zero⟩ | held
        · rw [zero]
          refine ⟨Nat.zero_le _, ?_⟩
          intro blockNumber held
          rw [show restarts.file = .missing from missing] at held
          cases held
        · refine ⟨(recorded.file _ held).2.1, ?_⟩
          intro blockNumber otherHeld
          rw [show restarts.file = _ from held, LogFile.holds.injEq] at otherHeld
          exact Nat.le_of_eq otherHeld.symm
  | stops =>
      refine ⟨recorded.logs, recorded.file, ?_⟩
      intro process running
      cases running
  | works running same handling sending kept keptVerified =>
      obtain ⟨oldHandling, oldSending, last, newest⟩ := recorded.process _ running
      refine ⟨recorded.logs, ?_, ?_⟩
      · intro blockNumber held
        obtain ⟨positive, ordered, log, member, source⟩ := recorded.file blockNumber held
        exact ⟨positive, ordered, log, keptVerified member, source⟩
      intro process isRunning
      rw [Option.some.injEq] at isRunning
      subst process
      refine ⟨?_, ?_, ?_⟩
      · intro other member
        rcases handling other member with earlier | logged
        · exact oldHandling other earlier
        · exact logged
      · intro other member
        rcases sending other member with earlier | ⟨handled, verified⟩
        · exact ⟨(oldSending other earlier).1, keptVerified (oldSending other earlier).2⟩
        · exact ⟨oldHandling other handled, verified⟩
      · rw [same]
        exact ⟨last, newest⟩
  | @stores position write process log running found newest =>
      obtain ⟨handling, sending, last, stored⟩ := recorded.process _ running
      obtain ⟨logged, verified⟩ := sending log (List.mem_of_getElem? found)
      obtain ⟨positive, bound, ordered⟩ := recorded.logs log logged
      rw [recorded.blockNumber_mod logged] at newest ⊢
      refine ⟨recorded.logs, ?_, ?_⟩
      · intro blockNumber held
        cases write with
        | written =>
            cases held
            exact ⟨positive, ordered, log, verified, rfl⟩
        | notOpened => exact recorded.file blockNumber held
        | cutShort => cases held
      · intro other isRunning
        rw [Option.some.injEq] at isRunning
        subst other
        refine ⟨handling, ?_, ordered, ?_⟩
        · intro other member
          exact sending other (List.mem_of_mem_eraseIdx member)
        · intro blockNumber held
          cases write with
          | written =>
              cases held
              exact Nat.le_refl _
          | notOpened => exact Nat.le_trans (stored blockNumber held) newest
          | cutShort => cases held

/-! ## The stored block -/

/-- A block that was stored once bounds what the operator works with later. -/
structure Reached (blockNumber : Nat) (restarts : Restarts) : Prop where
  recorded : restarts.Recorded
  missing : restarts.file ≠ .missing
  file : ∀ stored, restarts.file = .holds stored → blockNumber ≤ stored
  process : ∀ process, restarts.process = some process →
    blockNumber ≤ process.lastProcessedBatch

theorem Recorded.reached (recorded : restarts.Recorded) {blockNumber : Nat}
    (held : restarts.file = .holds blockNumber) : Reached blockNumber restarts := by
  refine ⟨recorded, ?_, ?_, ?_⟩
  · rw [held]
    intro missing
    cases missing
  · intro stored otherHeld
    rw [held, LogFile.holds.injEq] at otherHeld
    exact Nat.le_of_eq otherHeld
  · intro process running
    exact (recorded.process process running).2.2.2 blockNumber held

theorem Reached.step {blockNumber : Nat} (reached : Reached blockNumber restarts)
    (stepped : Restarts.step keccak restarts label = some next) : Reached blockNumber next := by
  have recorded := reached.recorded.step stepped
  cases step_cases stepped with
  | logs => exact ⟨recorded, reached.missing, reached.file, reached.process⟩
  | responds => exact ⟨recorded, reached.missing, reached.file, reached.process⟩
  | starts ended started =>
      refine ⟨recorded, reached.missing, reached.file, ?_⟩
      intro process running
      rw [Option.some.injEq] at running
      subst process
      rcases (newOperatorFromConfig_cases started).2.2 with ⟨missing, -⟩ | held
      · exact absurd missing reached.missing
      · exact reached.file _ held
  | stops =>
      refine ⟨recorded, reached.missing, reached.file, ?_⟩
      intro process running
      cases running
  | works running same =>
      refine ⟨recorded, reached.missing, reached.file, ?_⟩
      intro process isRunning
      rw [Option.some.injEq] at isRunning
      subst process
      rw [same]
      exact reached.process _ running
  | @stores position write process log running found newest =>
      have before := Nat.le_trans (reached.process process running) newest
      refine ⟨recorded, ?_, ?_, ?_⟩
      · cases write with
        | written | cutShort =>
            intro missing
            cases missing
        | notOpened => exact reached.missing
      · intro stored held
        cases write with
        | written =>
            cases held
            exact before
        | notOpened => exact reached.file stored held
        | cutShort => cases held
      · intro other isRunning
        rw [Option.some.injEq] at isRunning
        subst other
        exact before

/-- Over every run, with any number of restarts, the stored block never goes
back, and it is the block of a batch that verified. -/
theorem stored_block_never_decreases (keccak : Bytes → Bytes32) (before after : List Label)
    (middle finish : Restarts) (ranBefore : (machine keccak).run new before = some middle)
    (ranAfter : (machine keccak).run middle after = some finish) (earlier later : Nat)
    (heldBefore : middle.file = .holds earlier) (heldAfter : finish.file = .holds later) :
    earlier ≤ later ∧ ∃ log ∈ finish.verified, log.blockNumber = later := by
  have recorded : middle.Recorded :=
    Machine.run_invariant (fun holds stepped => holds.step stepped) recorded_new ranBefore
  have reached : Reached earlier finish :=
    Machine.run_invariant (fun holds stepped => holds.step stepped)
      (recorded.reached heldBefore) ranAfter
  exact ⟨reached.file later heldAfter, (reached.recorded.file later heldAfter).2.2⟩

/-! ## Batches that are not asked for -/

theorem missedFromBlock_of_pos {lastProcessedBatch : Nat} (positive : 0 < lastProcessedBatch) :
    missedFromBlock lastProcessedBatch =
      some (lastProcessedBatch - unverifiedBatchOffset) := by
  rw [missedFromBlock, if_neg (Nat.ne_of_gt positive)]
  split
  case isTrue small => rw [Nat.sub_eq_zero_of_le (Nat.le_of_lt small)]
  case isFalse => rfl

/-- The file is whole, and no unfinished batch is too far behind its block. -/
theorem Recorded.nothingLost_iff (recorded : restarts.Recorded) :
    restarts.NothingLost keccak ↔
      restarts.file ≠ .torn ∧
        ∀ blockNumber, restarts.file = .holds blockNumber →
          ∀ log, restarts.Unfinished keccak log →
            blockNumber ≤ log.blockNumber + unverifiedBatchOffset := by
  constructor
  · rintro (missing | ⟨process, started, asked⟩)
    · rw [missing]
      constructor
      · intro torn
        cases torn
      · intro blockNumber held
        cases held
    · obtain ⟨-, -, loaded⟩ := newOperatorFromConfig_cases started
      constructor
      · intro torn
        rw [torn] at started
        cases started
      · intro blockNumber held log unfinished
        rcases loaded with ⟨missing, -⟩ | sameBlock
        · rw [missing] at held
          cases held
        · rw [sameBlock, LogFile.holds.injEq] at held
          obtain ⟨fromBlock, isFrom, member⟩ := asked log unfinished
          have positive := (recorded.file _ sameBlock).1
          rw [missedFromBlock_of_pos positive, Option.some.injEq] at isFrom
          have inside := (mem_getNotRespondedTasksFrom.mp member).2.1
          omega
  · rintro ⟨whole, near⟩
    cases stored : restarts.file with
    | missing => exact .inl stored
    | torn => exact absurd stored whole
    | holds blockNumber =>
        right
        refine ⟨⟨blockNumber, [], [], .entering⟩, by rw [stored]; rfl, ?_⟩
        intro log unfinished
        refine ⟨_, missedFromBlock_of_pos (recorded.file _ stored).1, ?_⟩
        apply mem_getNotRespondedTasksFrom.mpr
        have inside := near blockNumber stored log unfinished
        refine ⟨unfinished.logged, ?_, unfinished.notResponded⟩
        change blockNumber - unverifiedBatchOffset ≤ log.blockNumber
        omega

/-- A step of the process, a response and a stop leave no more unfinished. -/
theorem unfinished_of_works {process : Option Process} {finished verified : List NewBatchLog}
    (kept : restarts.finished ⊆ finished) {log : NewBatchLog}
    (unfinished : Unfinished keccak
      { restarts with process := process, finished := finished, verified := verified } log) :
    restarts.Unfinished keccak log := by
  refine ⟨unfinished.logged, ?_, unfinished.notResponded⟩
  intro member
  exact unfinished.unfinished (kept member)

theorem unfinished_of_responds {identifierHash : Bytes32} {log : NewBatchLog}
    (unfinished : Unfinished keccak
      { restarts with responded := Function.update restarts.responded identifierHash true } log) :
    restarts.Unfinished keccak log := by
  refine ⟨unfinished.logged, unfinished.unfinished, ?_⟩
  have notResponded := unfinished.notResponded
  dsimp only at notResponded
  by_cases same : Aggregator.batchIdentifierHash keccak log.batchMerkleRoot log.senderAddress =
      identifierHash
  · rw [same, Function.update_self] at notResponded
    cases notResponded
  · rwa [Function.update_of_ne same] at notResponded

/-- Nothing is lost in a step exactly if it stores its block whole and near
every unfinished batch. -/
theorem Recorded.nothingLost_step (recorded : restarts.Recorded)
    (nothingLost : restarts.NothingLost keccak)
    (stepped : Restarts.step keccak restarts label = some next) :
    next.NothingLost keccak ↔ restarts.WithinOffset keccak label := by
  have recordedNext := recorded.step stepped
  rw [recordedNext.nothingLost_iff]
  obtain ⟨whole, near⟩ := recorded.nothingLost_iff.mp nothingLost
  cases step_cases stepped with
  | @logs log ordered positive bound =>
      apply iff_of_true _ trivial
      refine ⟨whole, ?_⟩
      intro blockNumber held other unfinished
      by_cases logged : other ∈ restarts.logs
      · exact near blockNumber held other ⟨logged, unfinished.unfinished, unfinished.notResponded⟩
      · -- A new batch is not behind the block that is stored.
        rcases List.mem_append.mp unfinished.logged with earlier | here
        · exact absurd earlier logged
        · rw [List.mem_singleton.mp here]
          have stored := (recorded.file blockNumber held).2.1
          omega
  | responds =>
      apply iff_of_true _ trivial
      refine ⟨whole, ?_⟩
      intro blockNumber held other unfinished
      exact near blockNumber held other (unfinished_of_responds unfinished)
  | starts | stops =>
      apply iff_of_true _ trivial
      refine ⟨whole, ?_⟩
      intro blockNumber held other unfinished
      exact near blockNumber held other
        (unfinished_of_works (List.Subset.refl restarts.finished) unfinished)
  | works running same handling sending kept keptVerified within =>
      apply iff_of_true _ within
      refine ⟨whole, ?_⟩
      intro blockNumber held other unfinished
      exact near blockNumber held other (unfinished_of_works kept unfinished)
  | @stores position write process log running found newest =>
      constructor
      · rintro ⟨wholeNext, nearNext⟩ otherProcess other isRunning isFound -
        rw [running, Option.some.injEq] at isRunning
        subst otherProcess
        rw [found, Option.some.injEq] at isFound
        subst other
        constructor
        · intro cutShort
          rw [cutShort] at wholeNext
          exact wholeNext rfl
        · intro written other unfinished
          apply nearNext (log.blockNumber % blockNumberLimit)
          · rw [written]
          · exact ⟨unfinished.logged, unfinished.unfinished, unfinished.notResponded⟩
      · intro within
        obtain ⟨notCutShort, nearWritten⟩ := within process log running found newest
        cases write with
        | written =>
            constructor
            · intro torn
              cases torn
            · intro blockNumber held other unfinished
              cases held
              exact nearWritten rfl other
                ⟨unfinished.logged, unfinished.unfinished, unfinished.notResponded⟩
        | notOpened =>
            refine ⟨whole, ?_⟩
            intro blockNumber held other unfinished
            exact near blockNumber held other
              ⟨unfinished.logged, unfinished.unfinished, unfinished.notResponded⟩
        | cutShort => exact absurd rfl notCutShort

namespace Sample

def batch (blockNumber : Nat) : NewBatchLog :=
  ⟨blockNumber, Bytes32.zero, 0, ""⟩

/-- The first batch is processed and its block stored. -/
def firstBatch : List Label :=
  [.newBatch (batch 10), .start, .receive 0, .handled 0 true, .batchProcessed 0 .written]

/-- Batches are logged while the operator is stopped; after the restart the
newest of them is done first. -/
def longStop : List Label :=
  [.stop, .newBatch (batch 20), .newBatch (batch 500), .start, .askMissed, .answerMissed true,
    .receive 2, .handled 3 true]

end Sample

open Sample

theorem stored_block_never_decreases_longStop :
    ∃ middle finish, (machine Keccak256.keccak256).run new firstBatch = some middle ∧
      (machine Keccak256.keccak256).run middle (longStop ++ [.batchProcessed 0 .written]) =
        some finish ∧ 10 ≤ 500 ∧ ∃ log ∈ finish.verified, log.blockNumber = 500 :=
  ⟨_, _, rfl, rfl, stored_block_never_decreases Keccak256.keccak256 firstBatch
    (longStop ++ [.batchProcessed 0 .written]) _ _ rfl rfl 10 500 rfl rfl⟩

end AlignedLayer.Operator.Restarts
