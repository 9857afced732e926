import AlignedLayer.Batcher.Flushing

/-!
# Transactions of the batch in flight

The decision to put a batch back is taken from an error alone.  It is right
in the runs in which the error tells what became of the transaction: a send
that is answered with an error was not broadcast, the cancellation ends with
the transaction neither pending nor included, and answering the clients does
not fail.  In these runs only the batch in flight can have a transaction, and
no batch that was put back has one that takes effect.
-/

namespace AlignedLayer

variable {environment : Environment} {config : Config}

/-! ## Transactions that were included -/

namespace Chain

variable {chain after : Chain} {id blockNumber : Nat}

/-- A pending transaction was executed, with or without success. -/
theorem mine_eq_some (mined : chain.mine environment config id blockNumber = some after) :
    ∃ transaction ∈ chain.pending, transaction.id = id ∧
      after.pending = chain.pending.filter (fun other => other.id ≠ id) ∧
      after.nextTransaction = chain.nextTransaction ∧
      ((∃ paymentService serviceManager,
          chain.createNewTask environment config blockNumber transaction.call =
            .ok (paymentService, serviceManager) ∧
          after.paymentService = paymentService ∧
          after.included = chain.included ++ [(transaction, true)]) ∨
        (after.paymentService = chain.paymentService ∧
          after.included = chain.included ++ [(transaction, false)])) := by
  rw [mine] at mined
  split at mined
  · cases mined
  · rename_i transaction found
    have member := List.mem_of_find?_eq_some found
    have sameId := List.find?_some found
    simp only [decide_eq_true_eq] at sameId
    simp only at mined
    split at mined
    · rename_i paymentService serviceManager executed
      cases mined
      exact ⟨transaction, member, sameId, rfl, rfl,
        .inl ⟨_, serviceManager, executed, rfl, rfl⟩⟩
    · cases mined
      exact ⟨transaction, member, sameId, rfl, rfl, .inr ⟨rfl, rfl⟩⟩

theorem isMined_append {transaction : Transaction}
    {success : Bool} (number : Nat) (after_included : after.included = chain.included ++
      [(transaction, success)]) :
    after.isMined number =
      (chain.isMined number || (success && transaction.batchNumber = number)) := by
  simp [isMined, after_included]

theorem charged_append {transaction : Transaction} {success : Bool}
    (after_included : after.included = chain.included ++ [(transaction, success)]) :
    after.charged = chain.charged ++ if success then transaction.entries else [] := by
  cases success <;> simp [charged, after_included]

theorem isMined_lt {batches number : Nat}
    (included : ∀ transaction ∈ chain.included, transaction.1.batchNumber < batches)
    (mined : chain.isMined number = true) : number < batches := by
  simp only [isMined, List.any_eq_true, Bool.and_eq_true, decide_eq_true_eq] at mined
  obtain ⟨transaction, member, -, rfl⟩ := mined
  exact included transaction member

theorem userCall_eq_some {call : UserCall} (called : chain.userCall call = some after) :
    after = { chain with paymentService := after.paymentService } := by
  simp only [userCall] at called
  split at called
  · cases called
    rfl
  · cases called

end Chain

/-! ## Only the batch in flight has transactions -/

/-- The stages a batch with an included transaction can be in. -/
def Stage.mayBeMined : Stage → Bool
  | .waiting _ | .cancelling | .updatingUsers _ | .cleaningUsers _ | .responding => true
  | _ => false

structure Submitted (shared : Shared) : Prop where
  current_lt : ∀ batch stage, shared.batch = some (batch, stage) →
    batch.number < shared.batches
  included_lt : ∀ transaction ∈ shared.chain.included,
    transaction.1.batchNumber < shared.batches
  restored_lt : ∀ number ∈ shared.restored, number < shared.batches
  pending_id : ∀ transaction ∈ shared.chain.pending,
    transaction.id < shared.chain.nextTransaction
  included_id : ∀ transaction ∈ shared.chain.included,
    transaction.1.id < shared.chain.nextTransaction
  ids_differ : ∀ transaction ∈ shared.chain.pending, ∀ other ∈ shared.chain.included,
    other.1.id ≠ transaction.id
  single : shared.chain.pending.length ≤ 1
  owner : ∀ transaction ∈ shared.chain.pending, ∃ batch stage,
    shared.batch = some (batch, stage) ∧ transaction.batchNumber = batch.number ∧
      transaction.entries = batch.entries ∧ transaction.call = batch.call ∧
      (stage = .waiting transaction.id ∨ stage = .cancelling) ∧
      shared.chain.isMined batch.number = false
  mined : ∀ batch stage, shared.batch = some (batch, stage) →
    shared.chain.isMined batch.number = true → stage.mayBeMined = true
  unrestored : ∀ batch stage, shared.batch = some (batch, stage) → stage.isOpen = true →
    batch.number ∉ shared.restored
  restored : ∀ number ∈ shared.restored, shared.chain.isMined number = false

/-- Answering the clients of the batch does not fail. -/
def Shared.CanRespond (serializationFails : Nat → Bool) (shared : Shared) : Prop :=
  shared.OfBatch fun batch =>
    (∀ index < batch.entries.length, serializationFails index = false) ∧
      ∀ entry ∈ batch.entries, entry.messagingSink.isSome = true

instance (serializationFails : Nat → Bool) (shared : Shared) :
    Decidable (shared.CanRespond serializationFails) :=
  inferInstanceAs (Decidable (shared.OfBatch _))

/-- The condition on a step under which errors tell what became of the
transaction. -/
def ErrorsAreFinal (system : System) : Label → Prop
  | .send answer | .sendFallback answer => answer ≠ .failed true
  | .endCancel => system.shared.OfBatch fun batch =>
      system.shared.chain.isPending batch.number = false ∧
        system.shared.chain.isMined batch.number = false
  | .respond serializationFails => system.shared.CanRespond serializationFails
  | _ => True

instance (system : System) (label : Label) : Decidable (ErrorsAreFinal system label) := by
  apply @Label.casesOn (fun label => Decidable (ErrorsAreFinal system label)) label
  all_goals intros
  all_goals dsimp only [ErrorsAreFinal]
  all_goals infer_instance

namespace Submitted

variable {shared after : Shared}

theorem pending_eq_nil (submitted : Submitted shared) {batch : InFlight} {stage : Stage}
    (current : shared.batch = some (batch, stage))
    (notWaiting : ∀ id, stage ≠ .waiting id) (notCancelling : stage ≠ .cancelling) :
    shared.chain.pending = [] := by
  refine List.eq_nil_iff_forall_not_mem.mpr fun transaction member => ?_
  obtain ⟨owner, ownerStage, ownerCurrent, -, -, -, stageIs, -⟩ :=
    submitted.owner transaction member
  rw [current, Option.some.injEq, Prod.mk.injEq] at ownerCurrent
  obtain ⟨-, rfl⟩ := ownerCurrent
  rcases stageIs with waits | cancels
  · exact notWaiting _ waits
  · exact notCancelling cancels

theorem pending_eq_nil_of_idle (submitted : Submitted shared) (idle : shared.batch = none) :
    shared.chain.pending = [] := by
  refine List.eq_nil_iff_forall_not_mem.mpr fun transaction member => ?_
  obtain ⟨owner, stage, current, -⟩ := submitted.owner transaction member
  rw [idle] at current
  cases current

theorem of_same (submitted : Submitted shared) (batch : after.batch = shared.batch)
    (batches : after.batches = shared.batches) (chain : after.chain = shared.chain)
    (restored : after.restored = shared.restored) : Submitted after := by
  obtain ⟨⟩ := after
  simp only at batch batches chain restored
  subst batch batches chain restored
  exact
    { current_lt := submitted.current_lt
      included_lt := submitted.included_lt
      restored_lt := submitted.restored_lt
      pending_id := submitted.pending_id
      included_id := submitted.included_id
      ids_differ := submitted.ids_differ
      single := submitted.single
      owner := submitted.owner
      mined := submitted.mined
      unrestored := submitted.unrestored
      restored := submitted.restored }

theorem withCells (submitted : Submitted shared) (cells : Ref → UserState) :
    Submitted { shared with cells := cells } :=
  submitted.of_same rfl rfl rfl rfl

/-- Without a pending transaction the work on a batch can go on to any stage
that fits what was mined. -/
theorem of_no_pending (submitted : Submitted shared) (chain : after.chain = shared.chain)
    (noPending : shared.chain.pending = []) (batches : shared.batches ≤ after.batches)
    (restored : ∀ number ∈ after.restored, number ∈ shared.restored ∨
      (number < after.batches ∧ shared.chain.isMined number = false))
    (current : ∀ batch stage, after.batch = some (batch, stage) →
      batch.number < after.batches ∧
        (shared.chain.isMined batch.number = true → stage.mayBeMined = true) ∧
        (stage.isOpen = true → batch.number ∉ after.restored)) : Submitted after where
  current_lt batch stage found := (current batch stage found).1
  included_lt transaction member := by
    rw [chain] at member
    exact (submitted.included_lt transaction member).trans_le batches
  restored_lt number member := by
    rcases restored number member with before | ⟨lt, -⟩
    · exact (submitted.restored_lt number before).trans_le batches
    · exact lt
  pending_id := by simp [chain, noPending]
  included_id := by
    rw [chain]
    exact submitted.included_id
  ids_differ := by simp [chain, noPending]
  single := by simp [chain, noPending]
  owner := by simp [chain, noPending]
  mined batch stage found := by
    rw [chain]
    exact (current batch stage found).2.1
  unrestored batch stage found := (current batch stage found).2.2
  restored number member := by
    rw [chain]
    rcases restored number member with before | ⟨-, notMined⟩
    · exact submitted.restored number before
    · exact notMined

/-- The work on the batch in flight enters another stage. -/
theorem enter (submitted : Submitted shared) {batch : InFlight} {stage next : Stage}
    (current : shared.batch = some (batch, stage)) (noPending : shared.chain.pending = [])
    (mined : shared.chain.isMined batch.number = true → next.mayBeMined = true)
    (openness : stage.isOpen = true ∨ next.isOpen = false) :
    Submitted (shared.enter batch next) := by
  refine submitted.of_no_pending rfl noPending (Nat.le_refl _) (fun _ => .inl) ?_
  intro other otherStage found
  simp only [Shared.enter, Option.some.injEq, Prod.mk.injEq] at found
  obtain ⟨rfl, rfl⟩ := found
  refine ⟨submitted.current_lt _ _ current, mined, fun nextOpen => ?_⟩
  rcases openness with stageOpen | nextClosed
  · exact submitted.unrestored _ _ current stageOpen
  · rw [nextClosed] at nextOpen
    cases nextOpen

theorem leave (submitted : Submitted shared) (noPending : shared.chain.pending = [])
    (chain : after.chain = shared.chain) (idle : after.batch = none)
    (batches : after.batches = shared.batches) (restored : after.restored = shared.restored) :
    Submitted after := by
  refine submitted.of_no_pending chain noPending (Nat.le_of_eq batches.symm) ?_ ?_
  · rw [restored]
    exact fun _ => .inl
  · intro batch stage found
    rw [idle] at found
    cases found

theorem restore (submitted : Submitted shared) {layout : QueueLayout} {maxQueueSize : Nat}
    {batch : InFlight} {restored : Shared} (current : shared.batch = some (batch, .failed))
    (ran : shared.restore layout maxQueueSize batch = some restored) : Submitted restored := by
  obtain ⟨queue, users, lost, rfl, -⟩ := Shared.restore_eq_some ran
  have notMined : shared.chain.isMined batch.number = false := by
    cases mined : shared.chain.isMined batch.number with
    | false => rfl
    | true => cases submitted.mined _ _ current mined
  have noPending := submitted.pending_eq_nil current (by simp) (by simp)
  refine submitted.of_no_pending rfl noPending (Nat.le_refl _) ?_ ?_
  · intro number member
    rcases List.mem_append.mp member with before | added
    · exact .inl before
    · rw [List.mem_singleton.mp added]
      exact .inr ⟨submitted.current_lt _ _ current, notMined⟩
  · intro other stage found
    simp only [Option.some.injEq, Prod.mk.injEq] at found
    obtain ⟨rfl, rfl⟩ := found
    refine ⟨submitted.current_lt _ _ current, by simp [notMined], ?_⟩
    simp [Stage.isOpen]

theorem broadcast (submitted : Submitted shared) {batch : InFlight} {stage : Stage}
    (current : shared.batch = some (batch, stage)) (unsent : stage.isUnsent = true) :
    Submitted ((shared.broadcast batch).enter batch
      (.waiting shared.chain.nextTransaction)) := by
  have noPending := submitted.pending_eq_nil current
    (by rintro id rfl; cases unsent) (by rintro rfl; cases unsent)
  have notMined : shared.chain.isMined batch.number = false := by
    cases mined : shared.chain.isMined batch.number with
    | false => rfl
    | true =>
        have contradiction := submitted.mined _ _ current mined
        cases stage <;> simp_all [Stage.isUnsent, Stage.mayBeMined]
  exact
    { current_lt := by
        rintro other otherStage ⟨⟩
        exact submitted.current_lt _ _ current
      included_lt := submitted.included_lt
      restored_lt := submitted.restored_lt
      pending_id := by simp [Shared.enter, Shared.broadcast, Chain.broadcast, noPending]
      included_id := fun transaction member =>
        Nat.lt_succ_of_lt (submitted.included_id transaction member)
      ids_differ := by
        intro transaction member other included
        simp only [Shared.enter, Shared.broadcast, Chain.broadcast, noPending, List.nil_append,
          List.mem_singleton] at member
        rw [member]
        exact Nat.ne_of_lt (submitted.included_id other included)
      single := by simp [Shared.enter, Shared.broadcast, Chain.broadcast, noPending]
      owner := by
        intro transaction member
        simp only [Shared.enter, Shared.broadcast, Chain.broadcast, noPending, List.nil_append,
          List.mem_singleton] at member
        rw [member]
        exact ⟨batch, _, rfl, rfl, rfl, rfl, .inl rfl, notMined⟩
      mined := by
        rintro other otherStage ⟨⟩ mined
        rfl
      unrestored := by
        rintro other otherStage ⟨⟩ -
        exact submitted.unrestored _ _ current (Stage.isOpen_of_isUnsent unsent)
      restored := submitted.restored }

theorem mine {config : Config} (submitted : Submitted shared) {id blockNumber : Nat}
    {chain : Chain}
    (mined : shared.chain.mine environment config id blockNumber = some chain) :
    Submitted { shared with chain := chain } := by
  obtain ⟨transaction, member, rfl, pending, nextTransaction, result⟩ := Chain.mine_eq_some mined
  obtain ⟨success, included⟩ : ∃ success,
      chain.included = shared.chain.included ++ [(transaction, success)] := by
    rcases result with ⟨_, _, -, -, included⟩ | ⟨-, included⟩
    · exact ⟨true, included⟩
    · exact ⟨false, included⟩
  obtain ⟨batch, stage, current, sameNumber, -, -, stageIs, notMined⟩ :=
    submitted.owner transaction member
  have isMined := fun number => Chain.isMined_append number included
  have only : chain.pending = [] := by
    obtain ⟨single, alone⟩ := List.length_eq_one_iff.mp
      (Nat.le_antisymm submitted.single (List.length_pos_of_mem member))
    rw [alone, List.mem_singleton] at member
    simp [pending, alone, member]
  have memIncluded : ∀ other ∈ chain.included,
      other ∈ shared.chain.included ∨ other.1 = transaction := by
    intro other otherMember
    rw [included, List.mem_append, List.mem_singleton] at otherMember
    rcases otherMember with before | rfl
    · exact .inl before
    · exact .inr rfl
  exact
    { current_lt := submitted.current_lt
      included_lt := by
        intro other otherMember
        rcases memIncluded other otherMember with before | same
        · exact submitted.included_lt other before
        · rw [same, sameNumber]
          exact submitted.current_lt _ _ current
      restored_lt := submitted.restored_lt
      pending_id := by simp [only]
      included_id := by
        intro other otherMember
        simp only [nextTransaction]
        rcases memIncluded other otherMember with before | same
        · exact submitted.included_id other before
        · rw [same]
          exact submitted.pending_id _ member
      ids_differ := by simp [only]
      single := by simp [only]
      owner := by simp [only]
      mined := by
        intro other otherStage found mined
        simp only at found
        rw [current, Option.some.injEq, Prod.mk.injEq] at found
        obtain ⟨-, rfl⟩ := found
        rcases stageIs with rfl | rfl <;> rfl
      unrestored := submitted.unrestored
      restored := by
        intro number restored
        have unrestored := submitted.unrestored _ _ current (by
          rcases stageIs with rfl | rfl <;> rfl)
        have different : transaction.batchNumber ≠ number := by
          rintro rfl
          exact unrestored (sameNumber ▸ restored)
        simp [isMined, submitted.restored number restored, different] }

theorem drop (submitted : Submitted shared) (id : Nat) :
    Submitted { shared with chain := shared.chain.drop id } := by
  have sub : ∀ transaction ∈ (shared.chain.drop id).pending,
      transaction ∈ shared.chain.pending := fun _ member => (List.mem_filter.mp member).1
  exact
    { current_lt := submitted.current_lt
      included_lt := submitted.included_lt
      restored_lt := submitted.restored_lt
      pending_id := fun transaction member => submitted.pending_id _ (sub _ member)
      included_id := submitted.included_id
      ids_differ := fun transaction member => submitted.ids_differ _ (sub _ member)
      single := (List.length_filter_le _ _).trans submitted.single
      owner := fun transaction member => submitted.owner _ (sub _ member)
      mined := submitted.mined
      unrestored := submitted.unrestored
      restored := submitted.restored }

theorem userCall (submitted : Submitted shared) {call : UserCall} {chain : Chain}
    (called : shared.chain.userCall call = some chain) :
    Submitted { shared with chain := chain } := by
  rw [Chain.userCall_eq_some called]
  exact ⟨submitted.current_lt, submitted.included_lt, submitted.restored_lt,
    submitted.pending_id, submitted.included_id, submitted.ids_differ, submitted.single,
    submitted.owner, submitted.mined, submitted.unrestored, submitted.restored⟩

theorem cancel (submitted : Submitted shared) {batch : InFlight} {id : Nat}
    (current : shared.batch = some (batch, .waiting id)) :
    Submitted (shared.enter batch .cancelling) where
  current_lt := by
    rintro other stage ⟨⟩
    exact submitted.current_lt _ _ current
  included_lt := submitted.included_lt
  restored_lt := submitted.restored_lt
  pending_id := submitted.pending_id
  included_id := submitted.included_id
  ids_differ := submitted.ids_differ
  single := submitted.single
  owner transaction member := by
    obtain ⟨owner, stage, ownerCurrent, number, entries, call, -, notMined⟩ :=
      submitted.owner transaction member
    rw [current, Option.some.injEq, Prod.mk.injEq] at ownerCurrent
    obtain ⟨rfl, -⟩ := ownerCurrent
    exact ⟨batch, .cancelling, rfl, number, entries, call, .inr rfl, notMined⟩
  mined := by
    rintro other stage ⟨⟩ mined
    rfl
  unrestored := by
    rintro other stage ⟨⟩ -
    exact submitted.unrestored _ _ current rfl
  restored := submitted.restored

theorem afterFlush (submitted : Submitted shared) {origin : FlushOrigin}
    (waits : origin = .insufficientBalance →
      ∃ batch address, shared.batch = some (batch, .insufficient address)) :
    Submitted (shared.afterFlush origin) := by
  cases origin with
  | disabledVerifiers => exact submitted
  | insufficientBalance =>
      obtain ⟨batch, address, current⟩ := waits rfl
      simp only [Shared.afterFlush, current]
      exact submitted.leave (submitted.pending_eq_nil current (by simp) (by simp)) rfl rfl rfl rfl

end Submitted

/-! ## Every step keeps it -/

section

variable {system : System} {label : Label} {after : Shared}

theorem Shared.respond_batch {serializationFails : Nat → Bool} {batch : InFlight}
    {stage : Stage} {shared : Shared} (canRespond : shared.CanRespond serializationFails)
    (current : shared.batch = some (batch, stage)) :
    (shared.respond serializationFails batch).batch = none := by
  obtain ⟨serializes, connected⟩ := Shared.OfBatch.current canRespond current
  rw [Shared.respond_eq serializes connected]

private theorem unsent_not_mined (submitted : Submitted system.shared) {batch : InFlight}
    {stage : Stage} (current : system.shared.batch = some (batch, stage))
    (unsent : stage.isUnsent = true) : system.shared.chain.isMined batch.number = false := by
  cases mined : system.shared.chain.isMined batch.number with
  | false => rfl
  | true =>
      have contradiction := submitted.mined _ _ current mined
      cases stage <;> simp_all [Stage.isUnsent, Stage.mayBeMined]

theorem Change.submitted (waits : FlushWaits system) (submitted : Submitted system.shared)
    (guarded : ErrorsAreFinal system label)
    (change : Change environment config system label after) : Submitted after := by
  cases change with
  | evict running full found removed =>
      obtain ⟨userStates, cells, rfl⟩ := Shared.evict_eq_ok removed
      exact submitted.of_same rfl rfl rfl rfl
  | evictPanics running full found removed =>
      obtain ⟨userStates, cells, rfl⟩ := Shared.evict_eq_error removed
      exact submitted.of_same rfl rfl rfl rfl
  | @extract layout gasPrice blockNumber idle =>
      rcases Shared.extract_cases environment config layout
        (gasPrice * gasPricePercentageMultiplier / percentageDivider) blockNumber system.shared
        with ⟨rest, -, equation⟩ | ⟨entries, rest, -, equation⟩
      · rw [equation]
        exact submitted.of_same rfl rfl rfl rfl
      · rw [equation]
        refine submitted.of_no_pending rfl (submitted.pending_eq_nil_of_idle idle)
          (Nat.le_succ _) (fun _ => .inl) ?_
        rintro batch stage ⟨⟩
        refine ⟨Nat.lt_succ_self _, fun mined => ?_, fun _ member => ?_⟩
        · exact absurd (Chain.isMined_lt submitted.included_lt mined) (Nat.lt_irrefl _)
        · exact absurd (submitted.restored_lt _ member) (Nat.lt_irrefl _)
  | advance current unsent later =>
      refine submitted.enter current (submitted.pending_eq_nil current ?_ ?_) ?_
        (.inl (Stage.isOpen_of_isUnsent unsent))
      · rintro id rfl
        cases unsent
      · rintro rfl
        cases unsent
      · simp [unsent_not_mined submitted current unsent]
  | send labelled current unsent answered =>
      rcases answered with ⟨-, rfl⟩ | ⟨rfl, -⟩
      · exact submitted.broadcast current unsent
      · rcases labelled with rfl | rfl <;> exact absurd rfl guarded
  | giveUpWaiting current => exact submitted.cancel current
  | endCancel current =>
      obtain ⟨notPending, notMined⟩ := Shared.OfBatch.current guarded current
      have noPending : system.shared.chain.pending = [] := by
        refine List.eq_nil_iff_forall_not_mem.mpr fun transaction member => ?_
        obtain ⟨owner, stage, ownerCurrent, number, -⟩ := submitted.owner transaction member
        rw [current, Option.some.injEq, Prod.mk.injEq] at ownerCurrent
        obtain ⟨rfl, -⟩ := ownerCurrent
        simp only [Chain.isPending, List.any_eq_false, decide_eq_true_eq] at notPending
        exact notPending transaction member number
      refine submitted.enter current noPending ?_ (.inl rfl)
      simp [notMined]
  | @receipt batch id current included =>
      have noPending : system.shared.chain.pending = [] := by
        refine List.eq_nil_iff_forall_not_mem.mpr fun transaction member => ?_
        obtain ⟨owner, stage, ownerCurrent, -, -, -, stageIs, -⟩ :=
          submitted.owner transaction member
        rw [current, Option.some.injEq, Prod.mk.injEq] at ownerCurrent
        obtain ⟨-, rfl⟩ := ownerCurrent
        simp only [Stage.waiting.injEq, reduceCtorEq, or_false] at stageIs
        simp only [List.any_eq_true, decide_eq_true_eq] at included
        obtain ⟨other, otherMember, sameId⟩ := included
        exact submitted.ids_differ transaction member other otherMember (sameId.trans stageIs)
      exact submitted.enter current noPending (fun _ => rfl) (.inr rfl)
  | @updateUser layout address batch users current member free =>
      obtain ⟨cells, equation⟩ := Shared.updateUser_eq layout address system.shared
      rw [equation]
      exact (submitted.withCells cells).enter current
        (submitted.pending_eq_nil current (by simp) (by simp)) (fun _ => rfl) (.inr rfl)
  | @updateRestoredUser layout address batch users current member free =>
      obtain ⟨cells, equation⟩ := Shared.updateUser_eq layout address system.shared
      rw [equation]
      refine (submitted.withCells cells).enter current
        (submitted.pending_eq_nil current (by simp) (by simp)) (fun mined => ?_) (.inr rfl)
      cases submitted.mined _ _ current mined
  | @cleanupUser layout address batch users current free =>
      obtain ⟨cells, equation⟩ := Shared.cleanupUser_eq layout address system.shared
      rw [equation]
      exact (submitted.withCells cells).enter current
        (submitted.pending_eq_nil current (by simp) (by simp)) (fun _ => rfl) (.inr rfl)
  | close current closed updated later =>
      have notOpen := Stage.not_isOpen_of_isClosed closed
      have noPending := submitted.pending_eq_nil current
        (by rintro id rfl; cases closed) (by rintro rfl; cases closed)
      rcases later with ⟨users, rfl⟩ | rfl
      · exact submitted.enter current noPending (fun _ => rfl) (.inr rfl)
      · exact submitted.enter current noPending (fun _ => rfl) (.inr rfl)
  | endRestored current =>
      exact submitted.leave (submitted.pending_eq_nil current (by simp) (by simp)) rfl rfl rfl rfl
  | respond current =>
      refine submitted.leave (submitted.pending_eq_nil current (by simp) (by simp)) rfl ?_ rfl rfl
      exact Shared.respond_batch guarded current
  | restore current ran => exact submitted.restore current ran
  | flush => exact submitted.of_same rfl rfl rfl rfl
  | flushAndReset labelled flushing =>
      have flushed : Submitted system.shared.flush := submitted.of_same rfl rfl rfl rfl
      exact flushed.afterFlush fun same => waits _ (same ▸ flushing)
  | @insertNonpaying origin address nonce flushing configured =>
      have created : Submitted (system.shared.createUser address nonce) :=
        submitted.of_same rfl rfl rfl rfl
      exact created.afterFlush fun same => waits _ (same ▸ flushing)
  | mine mined => exact submitted.mine mined
  | dropTransaction => exact submitted.drop _
  | userCall called => exact submitted.userCall called
  | _ => exact submitted.of_same rfl rfl rfl rfl

end

/-- A chain on which the batcher has not sent anything yet. -/
structure Chain.Fresh (chain : Chain) : Prop where
  pending : chain.pending = []
  included : chain.included = []

theorem submitted_initial {chain : Chain} (fresh : chain.Fresh) :
    Submitted (Shared.initial config chain) := by
  obtain ⟨userStates, cells, nextRef, equation⟩ := Shared.initial_eq config chain
  rw [equation]
  refine ⟨?_, ?_, ?_, ?_, ?_, ?_, ?_, ?_, ?_, ?_, ?_⟩ <;>
    simp [Shared.empty, fresh.pending, fresh.included]

end AlignedLayer
