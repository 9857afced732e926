import AlignedLayer.Aggregator.TaskMaps

/-!
# A pass of the garbage collector

From the lock on, a pass deletes the indices after the last deleted one, up to
that of the old task.  The lookup of a task that is not stored answers with
index 0, and index 0 comes before the first index that is deleted.
-/

namespace AlignedLayer.Aggregator

/-- From the lock to the unlock, with so many turns of the inner loop. -/
def pass (turns : Nat) : List Label :=
  .lockTasks :: (List.replicate turns .clearTask ++ [.unlockTasks])

/-- The maps without some indices and the hashes stored under them. -/
def without (removed : Nat → Bool) (aggregator : Aggregator) : Aggregator :=
  { aggregator with
    batchesIdentifierHashByIdx := fun index =>
      if removed index then none else aggregator.batchesIdentifierHashByIdx index
    batchesIdxByIdentifierHash := fun identifierHash =>
      if (aggregator.batchesIdxByIdentifierHash identifierHash).any removed then none
      else aggregator.batchesIdxByIdentifierHash identifierHash
    batchCreatedBlockByIdx := fun index =>
      if removed index then none else aggregator.batchCreatedBlockByIdx index
    batchDataByIdentifierHash := fun identifierHash =>
      if (aggregator.batchesIdxByIdentifierHash identifierHash).any removed then none
      else aggregator.batchDataByIdentifierHash identifierHash
    batchStartTimeByIdx := fun index =>
      if removed index then none else aggregator.batchStartTimeByIdx index }

/-- No map has an entry for the index or for the hash it had. -/
structure Cleared (before after : Aggregator) (index : Nat) : Prop where
  identifierHash : after.batchesIdentifierHashByIdx index = none
  createdBlock : after.batchCreatedBlockByIdx index = none
  startTime : after.batchStartTimeByIdx index = none
  byHash : ∀ hash, before.batchesIdentifierHashByIdx index = some hash →
    after.batchesIdxByIdentifierHash hash = none ∧ after.batchDataByIdentifierHash hash = none

/-- Every map has the entry for the index and for its hash that it had. -/
structure Untouched (before after : Aggregator) (index : Nat) : Prop where
  identifierHash : after.batchesIdentifierHashByIdx index =
    before.batchesIdentifierHashByIdx index
  createdBlock : after.batchCreatedBlockByIdx index = before.batchCreatedBlockByIdx index
  startTime : after.batchStartTimeByIdx index = before.batchStartTimeByIdx index
  byHash : ∀ hash, before.batchesIdentifierHashByIdx index = some hash →
    after.batchesIdxByIdentifierHash hash = before.batchesIdxByIdentifierHash hash ∧
      after.batchDataByIdentifierHash hash = before.batchDataByIdentifierHash hash

/-- The pass for the task comes to its end.  If the task is stored, everything
up to it is gone and everything newer is there; if not, nothing is gone.  The
last deleted index does not go back. -/
def CollectsUpTo (keccak : Bytes → Bytes32) (oldTaskIdHash : Bytes32) (aggregator : Aggregator) :
    Prop :=
  ∃ turns after, (machine keccak).run aggregator (pass turns) = some after ∧
    (∀ k, aggregator.batchesIdxByIdentifierHash oldTaskIdHash = some k →
      ∀ index, (index ≤ k → Cleared aggregator after index) ∧
        (k < index → Untouched aggregator after index)) ∧
    (aggregator.batchesIdxByIdentifierHash oldTaskIdHash = none →
      ∀ index, Untouched aggregator after index) ∧
    aggregator.lastIdxDeleted ≤ after.lastIdxDeleted

variable {keccak : Bytes → Bytes32} {aggregator after : Aggregator}

/-! ## What is left without some indices -/

theorem cleared_without (agree : aggregator.MapsAgree) {removed : Nat → Bool} {index : Nat}
    (gone : removed index = true) : Cleared aggregator (aggregator.without removed) index := by
  constructor
  · exact if_pos gone
  · exact if_pos gone
  · exact if_pos gone
  · intro hash stored
    have found := (agree.inverse hash index).mpr stored
    have any : (aggregator.batchesIdxByIdentifierHash hash).any removed = true := by
      rw [found]
      exact gone
    exact ⟨if_pos any, if_pos any⟩

theorem untouched_without (agree : aggregator.MapsAgree) {removed : Nat → Bool} {index : Nat}
    (stays : removed index = false) : Untouched aggregator (aggregator.without removed) index := by
  have kept : ¬ removed index = true := by
    rw [stays]
    exact Bool.false_ne_true
  constructor
  · exact if_neg kept
  · exact if_neg kept
  · exact if_neg kept
  · intro hash stored
    have found := (agree.inverse hash index).mpr stored
    have none : ¬ (aggregator.batchesIdxByIdentifierHash hash).any removed = true := by
      rw [found]
      exact kept
    exact ⟨if_neg none, if_neg none⟩

theorem without_nothing {removed : Nat → Bool} (nothing : ∀ index, removed index = false) :
    aggregator.without removed = aggregator := by
  obtain rfl : removed = fun _ => false := funext nothing
  rw [without]
  simp

theorem without_without (first second : Nat → Bool) :
    (aggregator.without first).without second =
      aggregator.without fun index => first index || second index := by
  have twice : ∀ {Entry : Type} (gone later : Bool) (entry : Option Entry),
      (if later then none else if gone then none else entry) =
        if (gone || later) = true then none else entry := by
    intro Entry gone later entry
    cases gone
    · rw [Bool.false_or, if_neg Bool.false_ne_true]
    · rw [Bool.true_or, if_pos rfl]
      exact ite_self _
  have anyTwice : ∀ found : Option Nat,
      (found.any first || (if found.any first then none else found).any second) =
        found.any fun index => first index || second index := by
    intro found
    cases found with
    | none => rfl
    | some index => cases gone : first index <;> simp [gone]
  simp only [without, Aggregator.mk.injEq, and_true]
  refine ⟨?_, ?_, ?_, ?_, ?_⟩
  · funext index
    exact twice _ _ _
  · funext hash
    refine (twice _ _ _).trans ?_
    rw [← anyTwice]
  · funext index
    exact twice _ _ _
  · funext hash
    refine (twice _ _ _).trans ?_
    rw [← anyTwice]
  · funext index
    exact twice _ _ _

theorem any_index_iff (agree : aggregator.MapsAgree) {hash : Bytes32} {i : Nat} :
    (aggregator.batchesIdxByIdentifierHash hash).any (fun index => index = i) = true ↔
      aggregator.batchesIdentifierHashByIdx i = some hash := by
  rw [Option.any_eq_true, ← agree.inverse]
  constructor
  · rintro ⟨index, found, same⟩
    rw [found, of_decide_eq_true same]
  · intro found
    exact ⟨i, found, decide_eq_true rfl⟩

/-- An update with none takes one entry away. -/
theorem update_none_eq {Key Entry : Type} [DecidableEq Key] (map : Key → Option Entry) (key : Key)
    {removed : Key → Bool} (isKey : ∀ other, removed other = true ↔ other = key) :
    (fun other => if removed other then none else map other) = Function.update map key none := by
  funext other
  by_cases same : other = key
  · rw [if_pos ((isKey other).mpr same), same, Function.update_self]
  · rw [if_neg (mt (isKey other).mp same), Function.update_of_ne same]

theorem update_none_of_absent {Key Entry : Type} [DecidableEq Key] {map : Key → Option Entry}
    {key : Key} (absent : map key = none) : Function.update map key none = map := by
  rw [← absent, Function.update_eq_self]

/-- A turn of the loop deletes one index. -/
theorem clearTask_eq_without (agree : aggregator.MapsAgree) (i : Nat) :
    aggregator.clearTask i = aggregator.without fun index => index = i := by
  have isIndex : ∀ index, decide (index = i) = true ↔ index = i := fun index => decide_eq_true_iff
  rw [clearTask]
  split
  · rename_i absent
    have nothing : ∀ hash, ¬ (aggregator.batchesIdxByIdentifierHash hash).any
        (fun index => index = i) = true := by
      intro hash found
      rw [any_index_iff agree, absent] at found
      cases found
    have noBlock : aggregator.batchCreatedBlockByIdx i = none := by
      rw [← Option.not_isSome_iff_eq_none, agree.createdBlock, absent]
      exact Bool.false_ne_true
    have noTime : aggregator.batchStartTimeByIdx i = none := by
      rw [← Option.not_isSome_iff_eq_none, agree.startTime, absent]
      exact Bool.false_ne_true
    simp only [without, if_neg (nothing _), update_none_eq _ i isIndex,
      update_none_of_absent absent, update_none_of_absent noBlock, update_none_of_absent noTime]
  · rename_i identifierHash stored
    have isHash : ∀ hash, (aggregator.batchesIdxByIdentifierHash hash).any
        (fun index => index = i) = true ↔ hash = identifierHash := by
      intro hash
      rw [any_index_iff agree, stored, Option.some.injEq]
      exact eq_comm
    simp only [without, update_none_eq _ i isIndex, update_none_eq _ identifierHash isHash]

/-! ## The turns of a pass -/

variable {next : Aggregator} {oldTaskIdHash : Bytes32} {taskIdxToDelete i turns : Nat}

theorem of_lockTasks (found : aggregator.collector = .found oldTaskIdHash)
    (stepped : step keccak aggregator .lockTasks = some next) :
    next = { aggregator with
      collector := .deleting ((aggregator.batchesIdxByIdentifierHash oldTaskIdHash).getD 0)
        ((aggregator.lastIdxDeleted + 1) % indexLimit) } := by
  unfold step at stepped
  rw [found] at stepped
  split at stepped
  · cases stepped
  · cases stepped
    rfl

theorem of_clearTask (deleting : aggregator.collector = .deleting taskIdxToDelete i)
    (stepped : step keccak aggregator .clearTask = some next) :
    i ≤ taskIdxToDelete ∧ next = { aggregator.clearTask i with
      collector := .deleting taskIdxToDelete ((i + 1) % indexLimit) } := by
  unfold step at stepped
  rw [deleting] at stepped
  split at stepped
  · cases stepped
  · dsimp only at stepped
    split at stepped
    · rename_i within
      cases stepped
      exact ⟨within, rfl⟩
    · cases stepped

theorem of_unlockTasks (deleting : aggregator.collector = .deleting taskIdxToDelete i)
    (stepped : step keccak aggregator .unlockTasks = some next) :
    taskIdxToDelete < i ∧
      next = { aggregator with lastIdxDeleted := taskIdxToDelete, collector := .waiting } := by
  unfold step at stepped
  rw [deleting] at stepped
  split at stepped
  · cases stepped
  · dsimp only at stepped
    split at stepped
    · cases stepped
    · rename_i past
      cases stepped
      exact ⟨Nat.lt_of_not_le past, rfl⟩

/-- A loop that ends has deleted the indices from its first to its last.  One up
to the greatest index does not end. -/
theorem run_turns (agree : aggregator.MapsAgree)
    (deleting : aggregator.collector = .deleting taskIdxToDelete i) (small : i < indexLimit)
    (ran : (machine keccak).run aggregator
      (List.replicate turns .clearTask ++ [.unlockTasks]) = some after) :
    taskIdxToDelete + 1 < indexLimit ∧
      after = { aggregator.without (fun index => i ≤ index ∧ index ≤ taskIdxToDelete) with
        lastIdxDeleted := taskIdxToDelete
        collector := .waiting } := by
  induction turns generalizing aggregator i with
  | zero =>
      obtain ⟨next, stepped, ended⟩ := Option.bind_eq_some_iff.mp ran
      obtain ⟨past, rfl⟩ := of_unlockTasks deleting stepped
      cases ended
      refine ⟨by omega, ?_⟩
      rw [without_nothing]
      intro index
      exact decide_eq_false (by omega)
  | succ turns ih =>
      rw [List.replicate_succ, List.cons_append] at ran
      obtain ⟨next, stepped, rest⟩ := Option.bind_eq_some_iff.mp ran
      obtain ⟨within, rfl⟩ := of_clearTask deleting stepped
      have agrees : MapsAgree { aggregator.clearTask i with
          collector := .deleting taskIdxToDelete ((i + 1) % indexLimit) } := by
        obtain ⟨inverse, data, createdBlock, startTime⟩ := agree.clearTask i
        exact ⟨inverse, data, createdBlock, startTime⟩
      obtain ⟨ends, left⟩ := ih agrees rfl (Nat.mod_lt _ (by decide)) rest
      refine ⟨ends, ?_⟩
      rw [Nat.mod_eq_of_lt (by omega)] at left
      have range : (fun index => (decide (index = i) ||
          decide (i + 1 ≤ index ∧ index ≤ taskIdxToDelete))) =
            fun index => decide (i ≤ index ∧ index ≤ taskIdxToDelete) := by
        funext index
        rw [← Bool.decide_or, decide_eq_decide]
        omega
      rw [← range, ← without_without, ← clearTask_eq_without agree, left]
      rfl

/-- Up to any other index the loop ends. -/
theorem exists_turns (running : aggregator.exited = false)
    (deleting : aggregator.collector = .deleting taskIdxToDelete i)
    (ends : taskIdxToDelete + 1 < indexLimit) :
    ∃ turns after, (machine keccak).run aggregator
      (List.replicate turns .clearTask ++ [.unlockTasks]) = some after := by
  induction left : taskIdxToDelete + 1 - i generalizing aggregator i with
  | zero =>
      refine ⟨0, { aggregator with lastIdxDeleted := taskIdxToDelete, collector := .waiting }, ?_⟩
      have past : taskIdxToDelete < i := by omega
      exact Option.bind_eq_some_iff.mpr ⟨_, step_unlockTasks running deleting past, rfl⟩
  | succ left ih =>
      have within : i ≤ taskIdxToDelete := by omega
      let next : Aggregator := { aggregator.clearTask i with
        collector := .deleting taskIdxToDelete ((i + 1) % indexLimit) }
      have runs : next.exited = false := by
        dsimp only [next]
        rw [clearTask]
        split
        · exact running
        · exact running
      have counted : next.collector = .deleting taskIdxToDelete (i + 1) := by
        dsimp only [next]
        rw [Nat.mod_eq_of_lt (by omega)]
      obtain ⟨turns, after, ran⟩ := ih runs counted (by omega)
      refine ⟨turns + 1, after, ?_⟩
      rw [List.replicate_succ, List.cons_append]
      exact Option.bind_eq_some_iff.mpr ⟨next, step_clearTask running deleting within, ran⟩

/-- What a pass leaves: it starts after the last deleted index, and a task that
is not stored counts as index 0. -/
theorem after_pass (agree : aggregator.MapsAgree)
    (found : aggregator.collector = .found oldTaskIdHash)
    (small : aggregator.lastIdxDeleted + 1 < indexLimit)
    (passed : (machine keccak).run aggregator (pass turns) = some after) :
    let taskIdxToDelete := (aggregator.batchesIdxByIdentifierHash oldTaskIdHash).getD 0
    after = { aggregator.without
        (fun index => aggregator.lastIdxDeleted + 1 ≤ index ∧ index ≤ taskIdxToDelete) with
      lastIdxDeleted := taskIdxToDelete
      collector := .waiting } := by
  obtain ⟨next, stepped, rest⟩ := Option.bind_eq_some_iff.mp passed
  obtain rfl := of_lockTasks found stepped
  rw [Nat.mod_eq_of_lt small] at rest
  have agrees : MapsAgree { aggregator with
      collector := .deleting ((aggregator.batchesIdxByIdentifierHash oldTaskIdHash).getD 0)
        (aggregator.lastIdxDeleted + 1) } := by
    obtain ⟨inverse, data, createdBlock, startTime⟩ := agree
    exact ⟨inverse, data, createdBlock, startTime⟩
  exact (run_turns agrees rfl small rest).2

theorem exists_pass (running : aggregator.exited = false)
    (found : aggregator.collector = .found oldTaskIdHash)
    (ends : (aggregator.batchesIdxByIdentifierHash oldTaskIdHash).getD 0 + 1 < indexLimit) :
    ∃ turns after, (machine keccak).run aggregator (pass turns) = some after := by
  have locked : step keccak aggregator .lockTasks = some { aggregator with
      collector := .deleting ((aggregator.batchesIdxByIdentifierHash oldTaskIdHash).getD 0)
        ((aggregator.lastIdxDeleted + 1) % indexLimit) } := by
    unfold step
    rw [if_neg (Bool.eq_false_iff.mp running), found]
  have locking : ({ aggregator with
      collector := .deleting ((aggregator.batchesIdxByIdentifierHash oldTaskIdHash).getD 0)
        ((aggregator.lastIdxDeleted + 1) % indexLimit) } : Aggregator).exited = false := running
  obtain ⟨turns, after, ran⟩ := @exists_turns keccak _ _ _ locking rfl ends
  exact ⟨turns, after, Option.bind_eq_some_iff.mpr ⟨_, locked, ran⟩⟩

/-- A pass for a stored task deletes exactly the indices after the last deleted
one, up to that of the task. -/
theorem pass_deletes {labels : List Label} {k : Nat}
    (ran : (machine keccak).run new labels = some aggregator)
    (found : aggregator.collector = .found oldTaskIdHash)
    (stored : aggregator.batchesIdxByIdentifierHash oldTaskIdHash = some k)
    (passed : (machine keccak).run aggregator (pass turns) = some after) :
    (∀ index, aggregator.lastIdxDeleted < index → index ≤ k → Cleared aggregator after index) ∧
      (∀ index, ¬ (aggregator.lastIdxDeleted < index ∧ index ≤ k) →
        Untouched aggregator after index) ∧
      after.lastIdxDeleted = k := by
  obtain ⟨agree, numbered⟩ := numbered_of_run ran
  obtain rfl := after_pass agree found numbered.lastIdxDeleted passed
  rw [stored, Option.getD_some]
  refine ⟨?_, ?_, rfl⟩
  · intro index past within
    obtain ⟨identifierHash, createdBlock, startTime, byHash⟩ :=
      @cleared_without aggregator agree
        (fun index => aggregator.lastIdxDeleted + 1 ≤ index ∧ index ≤ k) index
        (decide_eq_true ⟨past, within⟩)
    exact ⟨identifierHash, createdBlock, startTime, byHash⟩
  · intro index outside
    obtain ⟨identifierHash, createdBlock, startTime, byHash⟩ :=
      @untouched_without aggregator agree
        (fun index => aggregator.lastIdxDeleted + 1 ≤ index ∧ index ≤ k) index
        (decide_eq_false outside)
    exact ⟨identifierHash, createdBlock, startTime, byHash⟩

/-- Index 0 is stored once a task was opened, and no pass deletes it. -/
theorem first_stays (agree : aggregator.MapsAgree) (numbered : aggregator.Numbered)
    (found : aggregator.collector = .found oldTaskIdHash) {k : Nat}
    (stored : aggregator.batchesIdxByIdentifierHash oldTaskIdHash = some k)
    (passed : (machine keccak).run aggregator (pass turns) = some after) :
    (after.batchesIdentifierHashByIdx 0).isSome := by
  have opened : 0 < aggregator.openedTasks.length := by
    have bound := numbered.stored k _ ((agree.inverse _ _).mp stored)
    omega
  have first : (aggregator.batchesIdentifierHashByIdx 0).isSome := by
    rcases numbered.first opened with isStored | ⟨i, deleting⟩
    · exact isStored
    · rw [found] at deleting
      cases deleting
  obtain rfl := after_pass agree found numbered.lastIdxDeleted passed
  simpa [without] using first

namespace Sample

/-- The only task is old. -/
def onlyTaskOld : List Label :=
  [firstTask, .getOldTaskHash (some (identifierHash 0))]

/-- The second task is collected, and then a task is found that is not stored. -/
def missAfterPass : List Label :=
  [firstTask, laterTask, .getOldTaskHash (some (identifierHash 1))] ++ pass 1 ++
    [.getOldTaskHash (some Bytes32.zero)]

end Sample

end AlignedLayer.Aggregator
