import AlignedLayer.Aggregator.Tasks
import AlignedLayer.Library.Keccak256
import Mathlib.Data.List.Range
import Mathlib.Data.List.Infix

/-!
# The task maps stay consistent

The number of opened tasks is the true counter, of which `nextBatchIndex` is
the remainder.  The collector never reaches index 0, so that the counter
cannot start over: after the last index every new batch meets the entry of
the first one.
-/

namespace AlignedLayer.Aggregator

/-- The five maps agree. -/
structure MapsAgree (aggregator : Aggregator) : Prop where
  inverse : MutuallyInverse aggregator.batchesIdxByIdentifierHash
    aggregator.batchesIdentifierHashByIdx
  data : SameDomain aggregator.batchDataByIdentifierHash aggregator.batchesIdxByIdentifierHash
  createdBlock : SameDomain aggregator.batchCreatedBlockByIdx
    aggregator.batchesIdentifierHashByIdx
  startTime : SameDomain aggregator.batchStartTimeByIdx aggregator.batchesIdentifierHashByIdx

structure Consistent (aggregator : Aggregator) : Prop where
  maps : aggregator.MapsAgree
  below : ∀ index identifierHash,
    aggregator.batchesIdentifierHashByIdx index = some identifierHash →
      index < aggregator.nextBatchIndex
  /-- No index was given twice. -/
  given : (aggregator.openedTasks.map Prod.fst).Nodup

/-- A batch that is not stored finds an index whose successor is a `uint32`. -/
def HasNextIndex (keccak : Bytes → Bytes32) (aggregator : Aggregator) : Label → Prop
  | .addNewTask batchMerkleRoot senderAddress _ _ _ =>
      aggregator.batchesIdxByIdentifierHash
          (batchIdentifierHash keccak batchMerkleRoot senderAddress) = none →
        aggregator.nextBatchIndex + 1 ≠ indexLimit
  | _ => True

variable {keccak : Bytes → Bytes32} {aggregator next : Aggregator} {label : Label}

/-! ## What a step can do -/

/-- The moves of the collector outside the turns of its inner loop. -/
inductive CollectorMove (aggregator : Aggregator) : Collector → Nat → Prop where
  | restarts (waiting : aggregator.collector = .waiting) : CollectorMove aggregator .waiting 0
  | finds (oldTaskIdHash : Bytes32) (waiting : aggregator.collector = .waiting) :
      CollectorMove aggregator (.found oldTaskIdHash) aggregator.lastIdxDeleted
  | locks (oldTaskIdHash : Bytes32) (found : aggregator.collector = .found oldTaskIdHash) :
      CollectorMove aggregator
        (.deleting ((aggregator.batchesIdxByIdentifierHash oldTaskIdHash).getD 0)
          ((aggregator.lastIdxDeleted + 1) % indexLimit))
        aggregator.lastIdxDeleted
  | unlocks (taskIdxToDelete i : Nat)
      (deleting : aggregator.collector = .deleting taskIdxToDelete i)
      (past : taskIdxToDelete < i) : CollectorMove aggregator .waiting taskIdxToDelete

inductive Change (keccak : Bytes → Bytes32) (aggregator : Aggregator) :
    Label → Aggregator → Prop where
  | adds {batchMerkleRoot : Bytes32} {senderAddress : Address} {taskCreatedBlock now : Nat}
      {initialized : Bool} (unlocked : aggregator.collector.holdsLock = false) :
      Change keccak aggregator
        (.addNewTask batchMerkleRoot senderAddress taskCreatedBlock now initialized)
        (aggregator.addNewTask keccak batchMerkleRoot senderAddress taskCreatedBlock now
          initialized)
  | clears {taskIdxToDelete i : Nat}
      (deleting : aggregator.collector = .deleting taskIdxToDelete i)
      (within : i ≤ taskIdxToDelete) :
      Change keccak aggregator .clearTask
        { aggregator.clearTask i with
          collector := .deleting taskIdxToDelete ((i + 1) % indexLimit) }
  | skips : Change keccak aggregator (.getOldTaskHash none) aggregator
  | moves {label : Label} {collector : Collector} {lastIdxDeleted : Nat}
      (move : CollectorMove aggregator collector lastIdxDeleted)
      (noTask : HasNextIndex keccak aggregator label) :
      Change keccak aggregator label
        { aggregator with collector := collector, lastIdxDeleted := lastIdxDeleted }

theorem step_cases (stepped : step keccak aggregator label = some next) :
    Change keccak aggregator label next := by
  unfold step at stepped
  split at stepped
  · cases stepped
  · cases label with
    | addNewTask =>
        dsimp only at stepped
        split at stepped
        case isTrue => cases stepped
        case isFalse unlocked =>
          cases stepped
          exact .adds (Bool.eq_false_of_not_eq_true unlocked)
    | getOldTaskHash answer =>
        cases waiting : aggregator.collector <;> rw [waiting] at stepped
        case waiting =>
          cases answer with
          | none =>
              cases stepped
              exact .skips
          | some oldTaskIdHash =>
              cases stepped
              exact .moves (.finds oldTaskIdHash waiting) trivial
        all_goals cases answer <;> cases stepped
    | restartCollector =>
        cases waiting : aggregator.collector <;> rw [waiting] at stepped
        case waiting =>
          cases stepped
          exact .moves (.restarts waiting) trivial
        all_goals cases stepped
    | lockTasks =>
        cases found : aggregator.collector <;> rw [found] at stepped
        case found oldTaskIdHash =>
          cases stepped
          exact .moves (.locks oldTaskIdHash found) trivial
        all_goals cases stepped
    | clearTask =>
        cases deleting : aggregator.collector <;> rw [deleting] at stepped
        case deleting taskIdxToDelete i =>
          dsimp only at stepped
          split at stepped
          case isTrue within =>
            cases stepped
            exact .clears deleting within
          case isFalse => cases stepped
        all_goals cases stepped
    | unlockTasks =>
        cases deleting : aggregator.collector <;> rw [deleting] at stepped
        case deleting taskIdxToDelete i =>
          dsimp only at stepped
          split at stepped
          case isTrue => cases stepped
          case isFalse past =>
            cases stepped
            exact .moves (.unlocks taskIdxToDelete i deleting (Nat.lt_of_not_le past)) trivial
        all_goals cases stepped

theorem addNewTask_cases (keccak : Bytes → Bytes32) (batchMerkleRoot : Bytes32)
    (senderAddress : Address) (taskCreatedBlock now : Nat) (initialized : Bool)
    (aggregator : Aggregator) :
    let identifierHash := batchIdentifierHash keccak batchMerkleRoot senderAddress
    let added := aggregator.addNewTask keccak batchMerkleRoot senderAddress taskCreatedBlock now
      initialized
    added = aggregator ∧
        ((aggregator.batchesIdxByIdentifierHash identifierHash).isSome ∨
          (aggregator.batchesIdentifierHashByIdx aggregator.nextBatchIndex).isSome) ∨
      added = aggregator.enterTask identifierHash ⟨batchMerkleRoot, senderAddress⟩
          taskCreatedBlock now initialized ∧
        aggregator.batchesIdxByIdentifierHash identifierHash = none ∧
        aggregator.batchesIdentifierHashByIdx aggregator.nextBatchIndex = none := by
  intro identifierHash added
  dsimp only [added]
  rw [addNewTask]
  split
  case isTrue known => exact .inl ⟨rfl, .inl known⟩
  case isFalse newHash =>
    split
    case isTrue taken => exact .inl ⟨rfl, .inr taken⟩
    case isFalse newIndex =>
      rw [Option.not_isSome_iff_eq_none] at newHash newIndex
      exact .inr ⟨rfl, newHash, newIndex⟩

@[simp] theorem clearTask_openedTasks (i : Nat) :
    (aggregator.clearTask i).openedTasks = aggregator.openedTasks := by
  rw [clearTask]
  split <;> rfl

@[simp] theorem clearTask_nextBatchIndex (i : Nat) :
    (aggregator.clearTask i).nextBatchIndex = aggregator.nextBatchIndex := by
  rw [clearTask]
  split <;> rfl

@[simp] theorem clearTask_lastIdxDeleted (i : Nat) :
    (aggregator.clearTask i).lastIdxDeleted = aggregator.lastIdxDeleted := by
  rw [clearTask]
  split <;> rfl

theorem clearTask_batchesIdentifierHashByIdx (i : Nat) :
    (aggregator.clearTask i).batchesIdentifierHashByIdx =
      Function.update aggregator.batchesIdentifierHashByIdx i none := by
  rw [clearTask]
  split
  case h_1 absent =>
    rw [← absent, Function.update_eq_self]
  case h_2 => rfl

/-! ## The maps agree -/

namespace MapsAgree

theorem enterTask (agree : aggregator.MapsAgree) {identifierHash : Bytes32}
    (newHash : aggregator.batchesIdxByIdentifierHash identifierHash = none)
    (newIndex : aggregator.batchesIdentifierHashByIdx aggregator.nextBatchIndex = none)
    (batchData : BatchData) (taskCreatedBlock now : Nat) (initialized : Bool) :
    (aggregator.enterTask identifierHash batchData taskCreatedBlock now
      initialized).MapsAgree where
  inverse := agree.inverse.insert newHash newIndex
  data := agree.data.update _ (by simp)
  createdBlock := agree.createdBlock.update _ (by simp)
  startTime := agree.startTime.update _ (by simp)

theorem clearTask (agree : aggregator.MapsAgree) (i : Nat) :
    (aggregator.clearTask i).MapsAgree := by
  rw [Aggregator.clearTask]
  split
  case h_1 => exact agree
  case h_2 identifierHash stored =>
    constructor
    · exact agree.inverse.remove stored
    · exact agree.data.update _ Iff.rfl
    · exact agree.createdBlock.update _ Iff.rfl
    · exact agree.startTime.update _ Iff.rfl

theorem step (agree : aggregator.MapsAgree)
    (stepped : step keccak aggregator label = some next) : next.MapsAgree := by
  cases step_cases stepped with
  | adds =>
      rcases addNewTask_cases keccak _ _ _ _ _ aggregator with
        ⟨unchanged, -⟩ | ⟨entered, newHash, newIndex⟩
      · rw [unchanged]
        exact agree
      · rw [entered]
        exact agree.enterTask newHash newIndex _ _ _ _
  | clears =>
      obtain ⟨inverse, data, createdBlock, startTime⟩ := agree.clearTask _
      exact ⟨inverse, data, createdBlock, startTime⟩
  | skips => exact agree
  | moves =>
      obtain ⟨inverse, data, createdBlock, startTime⟩ := agree
      exact ⟨inverse, data, createdBlock, startTime⟩

end MapsAgree

/-! ## Every index is given once -/

/-- The collector deletes from index 1 on, unless its loop never ends: then it
compares with the largest `uint32`. -/
structure Numbered (aggregator : Aggregator) : Prop where
  indices : aggregator.openedTasks.map Prod.fst = List.range aggregator.openedTasks.length
  counter : aggregator.nextBatchIndex = aggregator.openedTasks.length % indexLimit
  bound : aggregator.openedTasks.length ≤ indexLimit
  stored : ∀ index identifierHash,
    aggregator.batchesIdentifierHashByIdx index = some identifierHash →
      index < aggregator.openedTasks.length
  first : 0 < aggregator.openedTasks.length →
    (aggregator.batchesIdentifierHashByIdx 0).isSome ∨
      ∃ i, aggregator.collector = .deleting (indexLimit - 1) i
  deleting : ∀ taskIdxToDelete i, aggregator.collector = .deleting taskIdxToDelete i →
    taskIdxToDelete < indexLimit ∧ i < indexLimit ∧ (taskIdxToDelete + 1 < indexLimit → 0 < i)
  lastIdxDeleted : aggregator.lastIdxDeleted + 1 < indexLimit

namespace Numbered

theorem enterTask (numbered : aggregator.Numbered) {identifierHash : Bytes32}
    (unlocked : aggregator.collector.holdsLock = false)
    (newIndex : aggregator.batchesIdentifierHashByIdx aggregator.nextBatchIndex = none)
    (batchData : BatchData) (taskCreatedBlock now : Nat) (initialized : Bool) :
    (aggregator.enterTask identifierHash batchData taskCreatedBlock now
      initialized).Numbered := by
  have notDeleting : ∀ taskIdxToDelete i,
      aggregator.collector ≠ .deleting taskIdxToDelete i := by
    intro taskIdxToDelete i isDeleting
    rw [isDeleting] at unlocked
    cases unlocked
  have firstStored : 0 < aggregator.openedTasks.length →
      (aggregator.batchesIdentifierHashByIdx 0).isSome := by
    intro positive
    rcases numbered.first positive with stored | ⟨i, isDeleting⟩
    · exact stored
    · exact absurd isDeleting (notDeleting _ i)
  -- After the last index the counter is 0, and index 0 is stored.
  have room : aggregator.openedTasks.length < indexLimit := by
    apply Nat.lt_of_le_of_ne numbered.bound
    intro full
    have zero : aggregator.nextBatchIndex = 0 := by
      rw [numbered.counter, full, Nat.mod_self]
    rw [zero] at newIndex
    have positive : 0 < aggregator.openedTasks.length := by
      rw [full]
      decide
    have stored := firstStored positive
    rw [newIndex] at stored
    cases stored
  have nextIndex : aggregator.nextBatchIndex = aggregator.openedTasks.length := by
    rw [numbered.counter, Nat.mod_eq_of_lt room]
  constructor
  case indices =>
    simp only [Aggregator.enterTask, List.map_append, List.map_cons, List.map_nil,
      List.length_append, List.length_singleton, List.range_succ, numbered.indices, nextIndex]
  case counter =>
    simp only [Aggregator.enterTask, List.length_append, List.length_singleton, nextIndex]
  case bound =>
    simp only [Aggregator.enterTask, List.length_append, List.length_singleton]
    exact room
  case stored =>
    intro index found stored
    simp only [Aggregator.enterTask, List.length_append, List.length_singleton]
    by_cases isNew : index = aggregator.nextBatchIndex
    · rw [isNew, nextIndex]
      exact Nat.lt_succ_self _
    · simp only [Aggregator.enterTask, Function.update_of_ne isNew] at stored
      exact Nat.lt_succ_of_lt (numbered.stored index found stored)
  case first =>
    intro _
    left
    simp only [Aggregator.enterTask]
    by_cases isNew : 0 = aggregator.nextBatchIndex
    · rw [← isNew, Function.update_self]
      rfl
    · rw [Function.update_of_ne isNew]
      apply firstStored
      omega
  case deleting =>
    intro taskIdxToDelete i isDeleting
    exact absurd isDeleting (notDeleting taskIdxToDelete i)
  case lastIdxDeleted => exact numbered.lastIdxDeleted

theorem clearTask (numbered : aggregator.Numbered) {taskIdxToDelete i : Nat}
    (isDeleting : aggregator.collector = .deleting taskIdxToDelete i)
    (within : i ≤ taskIdxToDelete) :
    Numbered { aggregator.clearTask i with
      collector := .deleting taskIdxToDelete ((i + 1) % indexLimit) } := by
  obtain ⟨targetBound, iBound, positive⟩ := numbered.deleting taskIdxToDelete i isDeleting
  constructor
  case indices => simpa using numbered.indices
  case counter => simpa using numbered.counter
  case bound => simpa using numbered.bound
  case stored =>
    intro index identifierHash stored
    simp only [clearTask_batchesIdentifierHashByIdx] at stored
    rw [clearTask_openedTasks]
    by_cases cleared : index = i
    · rw [cleared, Function.update_self] at stored
      cases stored
    · rw [Function.update_of_ne cleared] at stored
      exact numbered.stored index identifierHash stored
  case first =>
    intro opened
    rw [clearTask_openedTasks] at opened
    by_cases endless : taskIdxToDelete + 1 = indexLimit
    · right
      refine ⟨(i + 1) % indexLimit, ?_⟩
      rw [← endless, Nat.add_sub_cancel]
    · left
      have notFirst : 0 ≠ i := Nat.ne_of_lt (positive (by omega))
      simp only [clearTask_batchesIdentifierHashByIdx, Function.update_of_ne notFirst]
      rcases numbered.first opened with stored | ⟨other, isEndless⟩
      · exact stored
      · rw [isDeleting, Collector.deleting.injEq] at isEndless
        omega
  case deleting =>
    intro target turn same
    rw [Collector.deleting.injEq] at same
    obtain ⟨rfl, rfl⟩ := same
    refine ⟨targetBound, Nat.mod_lt _ (by decide), ?_⟩
    intro ends
    rw [Nat.mod_eq_of_lt (by omega)]
    exact Nat.succ_pos i
  case lastIdxDeleted => simpa using numbered.lastIdxDeleted

theorem collectorMove (numbered : aggregator.Numbered) (agree : aggregator.MapsAgree)
    {collector : Collector} {lastIdxDeleted : Nat} (move : CollectorMove aggregator collector lastIdxDeleted) :
    Numbered { aggregator with collector := collector, lastIdxDeleted := lastIdxDeleted } := by
  obtain ⟨indices, counter, bound, stored, first, deleting, lastBound⟩ := numbered
  have notEndless : (∀ i, aggregator.collector ≠ .deleting (indexLimit - 1) i) →
      0 < aggregator.openedTasks.length →
      (aggregator.batchesIdentifierHashByIdx 0).isSome := by
    intro ends opened
    rcases first opened with stored | ⟨i, isEndless⟩
    · exact stored
    · exact absurd isEndless (ends i)
  cases move with
  | restarts waiting =>
      refine ⟨indices, counter, bound, stored, ?_, ?_, ?_⟩
      · intro opened
        exact .inl (notEndless (by simp [waiting]) opened)
      · intro _ _ same
        cases same
      · exact Nat.lt_of_le_of_lt (Nat.succ_le_succ (Nat.zero_le _)) lastBound
  | finds oldTaskIdHash waiting =>
      refine ⟨indices, counter, bound, stored, ?_, ?_, lastBound⟩
      · intro opened
        exact .inl (notEndless (by simp [waiting]) opened)
      · intro _ _ same
        cases same
  | locks oldTaskIdHash found =>
      refine ⟨indices, counter, bound, stored, ?_, ?_, lastBound⟩
      · intro opened
        exact .inl (notEndless (by simp [found]) opened)
      · intro target turn same
        rw [Collector.deleting.injEq] at same
        obtain ⟨rfl, rfl⟩ := same
        refine ⟨?_, Nat.mod_lt _ (by decide), ?_⟩
        · cases known : aggregator.batchesIdxByIdentifierHash oldTaskIdHash with
          | none => exact Nat.lt_of_le_of_lt (Nat.zero_le _) lastBound
          | some index =>
              have isStored := (agree.inverse oldTaskIdHash index).mp known
              exact Nat.lt_of_lt_of_le (stored index oldTaskIdHash isStored) bound
        · intro _
          rw [Nat.mod_eq_of_lt lastBound]
          exact Nat.succ_pos _
  | unlocks _ i isDeleting past =>
      obtain ⟨targetBound, iBound, -⟩ := deleting lastIdxDeleted i isDeleting
      refine ⟨indices, counter, bound, stored, ?_, ?_,
        Nat.lt_of_le_of_lt (Nat.succ_le_of_lt past) iBound⟩
      · intro opened
        left
        apply notEndless _ opened
        intro turn isEndless
        rw [isDeleting, Collector.deleting.injEq] at isEndless
        omega
      · intro _ _ same
        cases same

theorem step (numbered : aggregator.Numbered) (agree : aggregator.MapsAgree)
    (stepped : step keccak aggregator label = some next) : next.Numbered := by
  cases step_cases stepped with
  | adds unlocked =>
      rcases addNewTask_cases keccak _ _ _ _ _ aggregator with
        ⟨unchanged, -⟩ | ⟨entered, -, newIndex⟩
      · rw [unchanged]
        exact numbered
      · rw [entered]
        exact numbered.enterTask unlocked newIndex _ _ _ _
  | clears isDeleting within => exact numbered.clearTask isDeleting within
  | skips => exact numbered
  | moves move => exact numbered.collectorMove agree move

end Numbered

theorem mapsAgree_new : MapsAgree new where
  inverse _ _ := by simp [new]
  data _ := Iff.rfl
  createdBlock _ := Iff.rfl
  startTime _ := Iff.rfl

theorem numbered_new : Numbered new where
  indices := rfl
  counter := rfl
  bound := Nat.zero_le _
  stored _ _ stored := by cases stored
  first opened := by cases opened
  deleting _ _ isDeleting := by cases isDeleting
  lastIdxDeleted := by decide

theorem numbered_of_run {labels : List Label}
    (ran : (machine keccak).run new labels = some aggregator) :
    aggregator.MapsAgree ∧ aggregator.Numbered := by
  have preserved : ∀ {state next : Aggregator} {label : Label},
      state.MapsAgree ∧ state.Numbered → (machine keccak).step state label = some next →
        next.MapsAgree ∧ next.Numbered := by
    intro state next label holds stepped
    exact ⟨holds.1.step stepped, holds.2.step holds.1 stepped⟩
  exact Machine.run_invariant preserved ⟨mapsAgree_new, numbered_new⟩ ran

/-- In every run no index is given twice, not even by a counter that wraps. -/
theorem openedTasks_nodup {labels : List Label}
    (ran : (machine keccak).run new labels = some aggregator) :
    (aggregator.openedTasks.map Prod.fst).Nodup := by
  rw [(numbered_of_run ran).2.indices]
  exact List.nodup_range

/-! ## Stored indices stay below the counter -/

/-- While the counter has not wrapped. -/
structure Unwrapped (aggregator : Aggregator) : Prop where
  maps : aggregator.MapsAgree
  numbered : aggregator.Numbered
  room : aggregator.openedTasks.length < indexLimit

namespace Unwrapped

theorem nextBatchIndex (unwrapped : aggregator.Unwrapped) :
    aggregator.nextBatchIndex = aggregator.openedTasks.length := by
  rw [unwrapped.numbered.counter, Nat.mod_eq_of_lt unwrapped.room]

theorem consistent (unwrapped : aggregator.Unwrapped) : aggregator.Consistent where
  maps := unwrapped.maps
  below index identifierHash stored := by
    rw [unwrapped.nextBatchIndex]
    exact unwrapped.numbered.stored index identifierHash stored
  given := by
    rw [unwrapped.numbered.indices]
    exact List.nodup_range

theorem step (unwrapped : aggregator.Unwrapped) (hasNext : HasNextIndex keccak aggregator label)
    (stepped : step keccak aggregator label = some next) : next.Unwrapped := by
  refine ⟨unwrapped.maps.step stepped, unwrapped.numbered.step unwrapped.maps stepped, ?_⟩
  cases step_cases stepped with
  | adds =>
      rcases addNewTask_cases keccak _ _ _ _ _ aggregator with
        ⟨unchanged, -⟩ | ⟨entered, newHash, -⟩
      · rw [unchanged]
        exact unwrapped.room
      · rw [entered]
        have notLast := hasNext newHash
        rw [unwrapped.nextBatchIndex] at notLast
        have room := unwrapped.room
        simp only [Aggregator.enterTask, List.length_append, List.length_singleton]
        omega
  | clears => simpa using unwrapped.room
  | skips => exact unwrapped.room
  | moves => exact unwrapped.room

end Unwrapped

theorem unwrapped_new : Unwrapped new where
  maps := mapsAgree_new
  numbered := numbered_new
  room := by decide

/-- A step that wraps the counter leaves the entry of the last index behind. -/
theorem hasNextIndex_of_below (unwrapped : aggregator.Unwrapped)
    (stepped : step keccak aggregator label = some next)
    (below : ∀ index identifierHash,
      next.batchesIdentifierHashByIdx index = some identifierHash → index < next.nextBatchIndex) :
    HasNextIndex keccak aggregator label := by
  cases step_cases stepped with
  | adds =>
      intro newHash last
      rcases addNewTask_cases keccak _ _ _ _ _ aggregator with
        ⟨-, known | taken⟩ | ⟨entered, -, -⟩
      · rw [newHash] at known
        cases known
      · obtain ⟨identifierHash, stored⟩ := Option.isSome_iff_exists.mp taken
        have bound := unwrapped.consistent.below _ _ stored
        exact absurd bound (Nat.lt_irrefl _)
      · rw [entered] at below
        have bound := below aggregator.nextBatchIndex _ (Function.update_self ..)
        simp only [Aggregator.enterTask, last, Nat.mod_self] at bound
        exact absurd bound (Nat.not_lt_zero _)
  | clears => trivial
  | skips => trivial
  | moves move noTask => exact noTask

theorem meets_of_below {labels : List Label} {start finish : Aggregator}
    (unwrapped : start.Unwrapped) (ran : (machine keccak).run start labels = some finish)
    (consistent : ∀ before state, before <+: labels →
      (machine keccak).run start before = some state → state.Consistent) :
    (machine keccak).Meets (HasNextIndex keccak) start labels := by
  induction labels generalizing start with
  | nil => trivial
  | cons label labels induction =>
      obtain ⟨next, stepped, rest⟩ := Option.bind_eq_some_iff.mp ran
      have single : (machine keccak).run start [label] = some next := by
        simp [Machine.run, stepped]
      have prefixOne : [label] <+: label :: labels := ⟨labels, rfl⟩
      have hasNext : HasNextIndex keccak start label :=
        hasNextIndex_of_below unwrapped stepped (consistent [label] next prefixOne single).below
      refine ⟨hasNext, ?_⟩
      intro other otherStep
      rw [stepped, Option.some.injEq] at otherStep
      subst otherStep
      apply induction (unwrapped.step hasNext stepped) rest
      intro before state isPrefix ranBefore
      apply consistent (label :: before) state
      · exact List.cons_prefix_cons.mpr ⟨rfl, isPrefix⟩
      · simp [Machine.run, stepped, ranBefore]

/-- The maps are consistent in every state of a run exactly when no new batch
meets the last `uint32` index. -/
theorem tasks_consistent_iff (keccak : Bytes → Bytes32) (labels : List Label)
    (finish : Aggregator) (ran : (machine keccak).run new labels = some finish) :
    (∀ before state, before <+: labels → (machine keccak).run new before = some state →
      state.Consistent) ↔
      (machine keccak).Meets (HasNextIndex keccak) new labels := by
  constructor
  · exact meets_of_below unwrapped_new ran
  · intro meets before state isPrefix ranBefore
    obtain ⟨after, rfl⟩ := isPrefix
    have meetsBefore := (meets.of_append ranBefore).1
    have unwrapped : state.Unwrapped :=
      Machine.run_preserves (fun holds hasNext stepped => holds.step hasNext stepped)
        unwrapped_new meetsBefore ranBefore
    exact unwrapped.consistent

/-! ## A counter that wraps -/

namespace Sample

/-- The first batch stays; the second is added and collected again and again. -/
def firstTask : Label := .addNewTask Bytes32.zero 0 1 0 true

def laterTask : Label := .addNewTask Bytes32.zero 1 1 0 true

def identifierHash (senderAddress : Address) : Bytes32 :=
  batchIdentifierHash Keccak256.keccak256 Bytes32.zero senderAddress

/-- One round of the later batch and of the collector. -/
def round : List Label :=
  [laterTask, .getOldTaskHash (some (identifierHash 1)), .lockTasks, .clearTask, .unlockTasks]

def rounds : Nat → List Label
  | 0 => []
  | count + 1 => rounds count ++ round

/-- After the first task and so many rounds. -/
def afterRounds (count : Nat) (openedTasks : List (Nat × BatchData)) : Aggregator :=
  { new.enterTask (identifierHash 0) ⟨Bytes32.zero, 0⟩ 1 0 true with
    nextBatchIndex := count + 1
    openedTasks := openedTasks
    lastIdxDeleted := count }

end Sample

open AlignedLayer.Aggregator.Sample

/-- Entering the later batch and clearing it again changes only the counter
and the history. -/
theorem clearTask_enterTask {identifierHash : Bytes32}
    (newHash : aggregator.batchesIdxByIdentifierHash identifierHash = none)
    (newIndex : aggregator.batchesIdentifierHashByIdx aggregator.nextBatchIndex = none)
    (agree : aggregator.MapsAgree) (running : aggregator.exited = false) (batchData : BatchData)
    (taskCreatedBlock now : Nat) :
    (aggregator.enterTask identifierHash batchData taskCreatedBlock now true).clearTask
        aggregator.nextBatchIndex =
      { aggregator with
        nextBatchIndex := (aggregator.nextBatchIndex + 1) % indexLimit
        openedTasks := aggregator.openedTasks ++ [(aggregator.nextBatchIndex, batchData)] } := by
  have noData : aggregator.batchDataByIdentifierHash identifierHash = none := by
    have same := agree.data identifierHash
    rw [newHash] at same
    simpa using same
  have noBlock : aggregator.batchCreatedBlockByIdx aggregator.nextBatchIndex = none := by
    have same := agree.createdBlock aggregator.nextBatchIndex
    rw [newIndex] at same
    simpa using same
  have noTime : aggregator.batchStartTimeByIdx aggregator.nextBatchIndex = none := by
    have same := agree.startTime aggregator.nextBatchIndex
    rw [newIndex] at same
    simpa using same
  have restored : ∀ {Key Value : Type} [DecidableEq Key] (map : Key → Option Value) (key : Key)
      (value : Value), map key = none →
      Function.update (Function.update map key (some value)) key none = map := by
    intro Key Value _ map key value absent
    rw [Function.update_idem, ← absent, Function.update_eq_self]
  rw [clearTask]
  simp only [enterTask, Function.update_self, restored _ _ _ newHash, restored _ _ _ newIndex,
    restored _ _ _ noData, restored _ _ _ noBlock, restored _ _ _ noTime, Bool.not_true, running]

theorem addNewTask_of_new {batchMerkleRoot : Bytes32} {senderAddress : Address}
    (newHash : aggregator.batchesIdxByIdentifierHash
      (batchIdentifierHash keccak batchMerkleRoot senderAddress) = none)
    (newIndex : aggregator.batchesIdentifierHashByIdx aggregator.nextBatchIndex = none)
    (taskCreatedBlock now : Nat) (initialized : Bool) :
    aggregator.addNewTask keccak batchMerkleRoot senderAddress taskCreatedBlock now initialized =
      aggregator.enterTask (batchIdentifierHash keccak batchMerkleRoot senderAddress)
        ⟨batchMerkleRoot, senderAddress⟩ taskCreatedBlock now initialized := by
  rw [addNewTask, newHash, newIndex]
  rfl

/-! Each label, where it can be taken. -/

theorem step_addNewTask {batchMerkleRoot : Bytes32} {senderAddress : Address}
    {taskCreatedBlock now : Nat} {initialized : Bool} (running : aggregator.exited = false)
    (unlocked : aggregator.collector.holdsLock = false) :
    step keccak aggregator
        (.addNewTask batchMerkleRoot senderAddress taskCreatedBlock now initialized) =
      some (aggregator.addNewTask keccak batchMerkleRoot senderAddress taskCreatedBlock now
        initialized) := by
  unfold step
  rw [if_neg (Bool.eq_false_iff.mp running)]
  exact if_neg (Bool.eq_false_iff.mp unlocked)

theorem step_getOldTaskHash {oldTaskIdHash : Bytes32} (running : aggregator.exited = false)
    (waiting : aggregator.collector = .waiting) :
    step keccak aggregator (.getOldTaskHash (some oldTaskIdHash)) =
      some { aggregator with collector := .found oldTaskIdHash } := by
  unfold step
  rw [if_neg (Bool.eq_false_iff.mp running), waiting]

theorem step_lockTasks {oldTaskIdHash : Bytes32} {taskIdxToDelete : Nat}
    (running : aggregator.exited = false) (found : aggregator.collector = .found oldTaskIdHash)
    (stored : aggregator.batchesIdxByIdentifierHash oldTaskIdHash = some taskIdxToDelete) :
    step keccak aggregator .lockTasks = some { aggregator with
      collector := .deleting taskIdxToDelete ((aggregator.lastIdxDeleted + 1) % indexLimit) } := by
  unfold step
  rw [if_neg (Bool.eq_false_iff.mp running), found]
  dsimp only
  rw [stored, Option.getD_some]

theorem step_clearTask {taskIdxToDelete i : Nat} (running : aggregator.exited = false)
    (deleting : aggregator.collector = .deleting taskIdxToDelete i)
    (within : i ≤ taskIdxToDelete) :
    step keccak aggregator .clearTask = some { aggregator.clearTask i with
      collector := .deleting taskIdxToDelete ((i + 1) % indexLimit) } := by
  unfold step
  rw [if_neg (Bool.eq_false_iff.mp running), deleting]
  exact if_pos within

theorem step_unlockTasks {taskIdxToDelete i : Nat} (running : aggregator.exited = false)
    (deleting : aggregator.collector = .deleting taskIdxToDelete i)
    (past : taskIdxToDelete < i) :
    step keccak aggregator .unlockTasks =
      some { aggregator with lastIdxDeleted := taskIdxToDelete, collector := .waiting } := by
  unfold step
  rw [if_neg (Bool.eq_false_iff.mp running), deleting]
  exact if_neg (Nat.not_le_of_lt past)

theorem clearTask_collector (collector : Collector) (i : Nat) :
    { aggregator with collector := collector }.clearTask i =
      { aggregator.clearTask i with collector := collector } := by
  rw [clearTask, clearTask]
  dsimp only
  split <;> rfl

/-- A batch that is added and at once collected leaves only the counters moved. -/
theorem run_addAndClear {batchMerkleRoot : Bytes32} {senderAddress : Address}
    {taskCreatedBlock now : Nat} (agree : aggregator.MapsAgree)
    (running : aggregator.exited = false) (waiting : aggregator.collector = .waiting)
    (newHash : aggregator.batchesIdxByIdentifierHash
      (batchIdentifierHash keccak batchMerkleRoot senderAddress) = none)
    (newIndex : aggregator.batchesIdentifierHashByIdx aggregator.nextBatchIndex = none)
    (last : aggregator.lastIdxDeleted + 1 = aggregator.nextBatchIndex)
    (room : aggregator.nextBatchIndex + 1 < indexLimit) :
    (machine keccak).run aggregator
      [.addNewTask batchMerkleRoot senderAddress taskCreatedBlock now true,
        .getOldTaskHash (some (batchIdentifierHash keccak batchMerkleRoot senderAddress)),
        .lockTasks, .clearTask, .unlockTasks] =
      some { aggregator with
        nextBatchIndex := aggregator.nextBatchIndex + 1
        openedTasks := aggregator.openedTasks ++
          [(aggregator.nextBatchIndex, ⟨batchMerkleRoot, senderAddress⟩)]
        lastIdxDeleted := aggregator.nextBatchIndex } := by
  have small : aggregator.nextBatchIndex < indexLimit := by omega
  let entered := aggregator.enterTask
    (batchIdentifierHash keccak batchMerkleRoot senderAddress)
    ⟨batchMerkleRoot, senderAddress⟩ taskCreatedBlock now true
  have added : step keccak aggregator
      (.addNewTask batchMerkleRoot senderAddress taskCreatedBlock now true) = some entered := by
    rw [step_addNewTask running (by rw [waiting]; rfl), addNewTask_of_new newHash newIndex]
  have found : step keccak entered
      (.getOldTaskHash (some (batchIdentifierHash keccak batchMerkleRoot senderAddress))) =
        some { entered with
          collector := .found (batchIdentifierHash keccak batchMerkleRoot senderAddress) } :=
    step_getOldTaskHash rfl waiting
  have locked : step keccak { entered with
        collector := .found (batchIdentifierHash keccak batchMerkleRoot senderAddress) }
      .lockTasks = some { entered with
        collector := .deleting aggregator.nextBatchIndex aggregator.nextBatchIndex } := by
    have stored : entered.batchesIdxByIdentifierHash
        (batchIdentifierHash keccak batchMerkleRoot senderAddress) =
          some aggregator.nextBatchIndex := Function.update_self ..
    have next : (entered.lastIdxDeleted + 1) % indexLimit = aggregator.nextBatchIndex := by
      rw [← Nat.mod_eq_of_lt small, ← last]
      rfl
    refine Eq.trans (step_lockTasks rfl rfl stored) ?_
    rw [next]
  have turn : step keccak { entered with
        collector := .deleting aggregator.nextBatchIndex aggregator.nextBatchIndex }
      .clearTask = some { aggregator with
        nextBatchIndex := aggregator.nextBatchIndex + 1
        openedTasks := aggregator.openedTasks ++
          [(aggregator.nextBatchIndex, ⟨batchMerkleRoot, senderAddress⟩)]
        collector := .deleting aggregator.nextBatchIndex (aggregator.nextBatchIndex + 1) } := by
    have cleared := clearTask_enterTask newHash newIndex agree running
      ⟨batchMerkleRoot, senderAddress⟩ taskCreatedBlock now
    rw [step_clearTask rfl rfl (Nat.le_refl _), clearTask_collector, cleared,
      Nat.mod_eq_of_lt room]
  have unlocked : step keccak { aggregator with
        nextBatchIndex := aggregator.nextBatchIndex + 1
        openedTasks := aggregator.openedTasks ++
          [(aggregator.nextBatchIndex, ⟨batchMerkleRoot, senderAddress⟩)]
        collector := .deleting aggregator.nextBatchIndex (aggregator.nextBatchIndex + 1) }
      .unlockTasks = some { aggregator with
        nextBatchIndex := aggregator.nextBatchIndex + 1
        openedTasks := aggregator.openedTasks ++
          [(aggregator.nextBatchIndex, ⟨batchMerkleRoot, senderAddress⟩)]
        lastIdxDeleted := aggregator.nextBatchIndex } := by
    refine Eq.trans (step_unlockTasks running rfl (Nat.lt_succ_self _)) ?_
    rw [← waiting]
  simp only [Machine.run, machine, added, found, locked, turn, unlocked, Option.bind_some]

theorem mapsAgree_afterRounds (count : Nat) (openedTasks : List (Nat × BatchData)) :
    (afterRounds count openedTasks).MapsAgree := by
  have agree : (new.enterTask (identifierHash 0) ⟨Bytes32.zero, 0⟩ 1 0 true).MapsAgree :=
    mapsAgree_new.enterTask rfl rfl _ _ _ _
  exact ⟨agree.inverse, agree.data, agree.createdBlock, agree.startTime⟩

theorem afterRounds_newHash (count : Nat) (openedTasks : List (Nat × BatchData)) :
    (afterRounds count openedTasks).batchesIdxByIdentifierHash (identifierHash 1) = none := by
  have differs : identifierHash 1 ≠ identifierHash 0 := by decide +kernel
  exact Function.update_of_ne differs (some 0) fun _ => none

theorem afterRounds_newIndex (count : Nat) (openedTasks : List (Nat × BatchData)) :
    (afterRounds count openedTasks).batchesIdentifierHashByIdx (count + 1) = none := by
  simp [afterRounds, enterTask, new]

theorem run_firstTask : (machine Keccak256.keccak256).run new [firstTask] =
    some (afterRounds 0 [(0, ⟨Bytes32.zero, 0⟩)]) :=
  rfl

theorem run_round {count : Nat} (openedTasks : List (Nat × BatchData))
    (room : count + 1 + 1 < indexLimit) :
    (machine Keccak256.keccak256).run (afterRounds count openedTasks) round =
      some (afterRounds (count + 1) (openedTasks ++ [(count + 1, ⟨Bytes32.zero, 1⟩)])) :=
  run_addAndClear (mapsAgree_afterRounds count openedTasks) rfl rfl
    (afterRounds_newHash count openedTasks) (afterRounds_newIndex count openedTasks) rfl room

theorem run_rounds {count : Nat} (room : count + 1 < indexLimit) :
    ∃ openedTasks, (machine Keccak256.keccak256).run (afterRounds 0 [(0, ⟨Bytes32.zero, 0⟩)])
      (rounds count) = some (afterRounds count openedTasks) := by
  induction count with
  | zero => exact ⟨_, rfl⟩
  | succ count induction =>
      obtain ⟨openedTasks, ran⟩ := induction (by omega)
      refine ⟨openedTasks ++ [(count + 1, ⟨Bytes32.zero, 1⟩)], ?_⟩
      rw [rounds, Machine.run_append, ran, Option.bind_some]
      exact run_round openedTasks room

theorem tasks_consistent_iff_round :
    (∀ before state, before <+: firstTask :: round →
      (machine Keccak256.keccak256).run new before = some state → state.Consistent) ↔
      (machine Keccak256.keccak256).Meets (HasNextIndex Keccak256.keccak256) new
        (firstTask :: round) := by
  have ran : (machine Keccak256.keccak256).run new (firstTask :: round) =
      some (afterRounds 1 [(0, ⟨Bytes32.zero, 0⟩), (1, ⟨Bytes32.zero, 1⟩)]) := by
    rw [← List.singleton_append, Machine.run_append, run_firstTask, Option.bind_some]
    exact run_round [(0, ⟨Bytes32.zero, 0⟩)] (by decide)
  exact tasks_consistent_iff Keccak256.keccak256 (firstTask :: round) _ ran

/-- After the last index the counter is 0 again, below the index of the first
batch, and no batch enters any more. -/
theorem counter_wraps : ∃ aggregator,
    (machine Keccak256.keccak256).run new
        (firstTask :: (rounds (indexLimit - 2) ++ [laterTask])) = some aggregator ∧
      aggregator.nextBatchIndex = 0 ∧
      aggregator.batchesIdentifierHashByIdx 0 = some (identifierHash 0) ∧
      ¬ aggregator.Consistent ∧
      ∀ batchMerkleRoot senderAddress taskCreatedBlock now initialized,
        aggregator.addNewTask Keccak256.keccak256 batchMerkleRoot senderAddress taskCreatedBlock
          now initialized = aggregator := by
  have room : indexLimit - 2 + 1 < indexLimit := by decide
  obtain ⟨openedTasks, ran⟩ := run_rounds room
  let finish := (afterRounds (indexLimit - 2) openedTasks).enterTask (identifierHash 1)
    ⟨Bytes32.zero, 1⟩ 1 0 true
  have last : (machine Keccak256.keccak256).run (afterRounds (indexLimit - 2) openedTasks)
      [laterTask] = some finish := by
    have entered := addNewTask_of_new (afterRounds_newHash (indexLimit - 2) openedTasks)
      (afterRounds_newIndex (indexLimit - 2) openedTasks) 1 0 true
    exact congrArg some entered
  have zero : finish.nextBatchIndex = 0 := by
    change (indexLimit - 2 + 1 + 1) % indexLimit = 0
    decide
  have stored : finish.batchesIdentifierHashByIdx 0 = some (identifierHash 0) := by
    simp [finish, afterRounds, enterTask, new]
  refine ⟨finish, ?_, zero, stored, ?_, ?_⟩
  · rw [← List.singleton_append, Machine.run_append, run_firstTask, Option.bind_some,
      Machine.run_append, ran, Option.bind_some, last]
  · intro consistent
    have below := consistent.below 0 _ stored
    rw [zero] at below
    exact absurd below (Nat.lt_irrefl 0)
  · intro batchMerkleRoot senderAddress taskCreatedBlock now initialized
    rcases addNewTask_cases Keccak256.keccak256 batchMerkleRoot senderAddress taskCreatedBlock now
      initialized finish with ⟨unchanged, -⟩ | ⟨-, -, newIndex⟩
    · exact unchanged
    · rw [zero, stored] at newIndex
      cases newIndex

end AlignedLayer.Aggregator
