import AlignedLayer.Batcher.Submissions
import AlignedLayer.Library.Transfer

/-!
# What becomes of an accepted entry

An entry waits in the queue or in the batch in flight until its batch takes
effect on the chain, or until it is lost.  Every step is a transfer of the
waiting entries; under `TellsLosses` the connection of every lost entry gets a
message that ends the proof.
-/

namespace AlignedLayer

/-- The messages after which a proof is no longer the batcher's concern. -/
def SubmitProofResponseMessage.isTerminal : SubmitProofResponseMessage → Bool
  | .underpricedProof | .proofReplaced | .userFundsUnlocked | .batchReset => true
  | _ => false

namespace Shared

/-- Everything queued, and what is in flight and not on the chain yet. -/
def waiting (shared : Shared) : List BatchQueueEntry :=
  shared.batchQueue.items ++ shared.unmined

/-- The entries whose connection was sent a terminal message. -/
def terminated (shared : Shared) : List BatchQueueEntry :=
  (shared.notices.filter fun notice => notice.message.isTerminal).map Notice.proof

theorem terminated_notify {entries : List BatchQueueEntry}
    {message : SubmitProofResponseMessage} (terminal : message.isTerminal = true)
    (shared : Shared) :
    (shared.notify entries message).terminated =
      shared.terminated ++ entries.filter fun entry => entry.messagingSink.isSome := by
  simp [terminated, notify, terminal, List.filter_map, Function.comp_def]

theorem terminated_notify_connected {entries : List BatchQueueEntry}
    {message : SubmitProofResponseMessage} (terminal : message.isTerminal = true)
    (connected : ∀ entry ∈ entries, entry.messagingSink.isSome = true) (shared : Shared) :
    (shared.notify entries message).terminated = shared.terminated ++ entries := by
  rw [terminated_notify terminal, List.filter_eq_self.mpr connected]

theorem terminated_respond (serializationFails : Nat → Bool) (batch : InFlight)
    (shared : Shared) :
    (shared.respond serializationFails batch).terminated = shared.terminated := by
  have none_terminal : ∀ entries : List (Nat × BatchQueueEntry),
      ((inclusionResponses serializationFails entries).1.filter fun notice =>
        notice.message.isTerminal) = [] := by
    intro entries
    induction entries with
    | nil => rfl
    | cons entry rest induction =>
        simp only [inclusionResponses]
        split
        · rfl
        · simpa [SubmitProofResponseMessage.isTerminal] using induction
  simp [terminated, respond, none_terminal]

/-! ## Entries in flight -/

variable {shared after : Shared} {batch : InFlight} {stage : Stage}

theorem unmined_of_none (idle : shared.batch = none) : shared.unmined = [] := by
  rw [unmined, idle]

theorem unmined_of_closed (current : shared.batch = some (batch, stage))
    (closed : stage.isOpen = false) : shared.unmined = [] := by
  simp [unmined, current, inFlight_of_not_open current closed]

theorem unmined_of_restored {users : List Address}
    (current : shared.batch = some (batch, .restored users)) : shared.unmined = [] :=
  unmined_of_closed current rfl

theorem unmined_of_updating {users : List Address}
    (current : shared.batch = some (batch, .updatingUsers users)) : shared.unmined = [] :=
  unmined_of_closed current rfl

theorem unmined_of_cleaning {users : List Address}
    (current : shared.batch = some (batch, .cleaningUsers users)) : shared.unmined = [] :=
  unmined_of_closed current rfl

theorem unmined_of_mined (current : shared.batch = some (batch, stage))
    (mined : shared.chain.isMined batch.number = true) : shared.unmined = [] := by
  simp [unmined, current, mined]

theorem unmined_of_open (current : shared.batch = some (batch, stage))
    (isOpen : stage.isOpen = true) (notMined : shared.chain.isMined batch.number = false) :
    shared.unmined = batch.entries := by
  simp [unmined, current, notMined, inFlight_of_open current isOpen]

theorem unmined_of_same (sameBatch : after.batch = shared.batch)
    (sameMined : ∀ number, after.chain.isMined number = shared.chain.isMined number) :
    after.unmined = shared.unmined := by
  simp only [unmined, inFlight, sameBatch, sameMined]

/-- Going from one open stage to another keeps the entries in flight. -/
theorem unmined_enter {next : Stage} (current : shared.batch = some (batch, stage))
    (isOpen : stage.isOpen = true) (nextOpen : next.isOpen = true) :
    (shared.enter batch next).unmined = shared.unmined := by
  simp [unmined, inFlight, enter, current, isOpen, nextOpen]

/-- A batch that may go back to the queue has no transaction that took
effect. -/
theorem unmined_of_not_mayBeMined (submitted : Submitted shared)
    (current : shared.batch = some (batch, stage)) (isOpen : stage.isOpen = true)
    (before : stage.mayBeMined = false) : shared.unmined = batch.entries := by
  apply unmined_of_open current isOpen
  cases mined : shared.chain.isMined batch.number with
  | false => rfl
  | true =>
      have contradiction := submitted.mined _ _ current mined
      rw [before] at contradiction
      cases contradiction

end Shared

/-! ## Conditions on a step -/

/-- A key is only accepted as new when it is `free`. -/
def AcceptsFree (free : System → Address × Nat → Prop) (system : System) : Label → Prop
  | .enqueue task _ => system.When Phase.enqueuing (fun request _ =>
      free system (request.addr, request.noncedVerificationData.nonce)) task
  | _ => True

instance (free : System → Address × Nat → Prop) [∀ system, DecidablePred (free system)]
    (system : System) (label : Label) : Decidable (AcceptsFree free system label) := by
  apply @Label.casesOn (fun label => Decidable (AcceptsFree free system label)) label
  all_goals intros
  all_goals dsimp only [AcceptsFree]
  all_goals infer_instance

/-- The condition on a step under which nothing is dropped without a message,
and nothing is kept after one. -/
def TellsLosses (environment : Environment) (config : Config) (system : System) : Label → Prop
  | .enqueue task layout => system.When Phase.enqueuing (fun request _ =>
      BatchState.isQueueFull config.maxQueueSize system.shared.batchQueue = true →
      ∀ target ∈ system.shared.evictionTarget layout system.locks
        request.noncedVerificationData.maxFee,
        (system.shared.cells target.1).coversEviction target.2.maxFee) task
  | .replace task _ => system.When Phase.replacing (fun request _ =>
      ∀ original ∈ BatchState.getEntry system.shared.batchQueue request.addr
        request.noncedVerificationData.nonce,
        original.maxFee ≤ request.noncedVerificationData.maxFee →
        BatchState.replacementEntryIsValid system.shared.batchQueue
          (System.replacementEntry environment request original) = true) task
  | .receipt => system.shared.OfBatch fun batch =>
      system.shared.chain.isMined batch.number = true
  | .restore _ => system.shared.OfBatch fun batch =>
      system.shared.batchQueue.len + batch.entries.length ≤ config.maxQueueSize
  | _ => True

instance (environment : Environment) (config : Config) (system : System) (label : Label) :
    Decidable (TellsLosses environment config system label) := by
  apply @Label.casesOn (fun label => Decidable (TellsLosses environment config system label)) label
  all_goals intros
  all_goals dsimp only [TellsLosses]
  all_goals infer_instance

/-- Neither queued nor in flight. -/
def System.IsUnclaimed (system : System) (key : Address × Nat) : Prop :=
  key ∉ system.shared.waiting.map BatchQueueEntry.key

instance (system : System) : DecidablePred system.IsUnclaimed :=
  fun _ => inferInstanceAs (Decidable (¬ _))

section

variable {environment : Environment} {config : Config} {system : System} {label : Label}
  {after : Shared}

/-! ## Every step is a transfer -/

/-- The step adds or replaces a proof with the sender and the fee of this
entry. -/
def System.Offers (system : System) (label : Label) (entry : BatchQueueEntry) : Prop :=
  ∃ task request ref balance,
    (((∃ layout, label = .enqueue task layout) ∧
        system.handlers task = some (request, .enqueue ref balance)) ∨
      (∃ verifier, label = .replace task verifier) ∧
        system.handlers task = some (request, .replace ref balance)) ∧
    entry.sender = request.addr ∧ entry.maxFee = request.noncedVerificationData.maxFee

variable (environment config system label after)

/-- What a step does to the accepted entries: `added` starts to wait, `dropped`
was accepted although its key was queued, `settled` is charged, and `lost`
leaves. -/
structure Flow (added settled lost dropped : List BatchQueueEntry) : Prop where
  transfer : Transfer system.shared.waiting added settled lost after.waiting
  accepted : after.accepted = system.shared.accepted ++ (added ++ dropped)
  charged : after.chain.charged = system.shared.chain.charged ++ settled
  single : added.length ≤ 1
  connected : ∀ entry ∈ added, entry.messagingSink.isSome = true
  offered : ∀ entry ∈ added, system.Offers label entry
  fresh : ∀ free : System → Address × Nat → Prop, AcceptsFree free system label →
    ∀ entry ∈ added, entry.key ∈ lost.map BatchQueueEntry.key ∨ free system entry.key
  stored : AcceptsFree System.IsUnclaimed system label → dropped = []
  told : TellsLosses environment config system label →
    (system.shared.waiting.map BatchQueueEntry.key).Nodup →
    (∀ entry ∈ system.shared.waiting, entry.messagingSink.isSome = true) →
    after.terminated = system.shared.terminated ++ lost

variable {environment config system label after}

namespace Flow

theorem of_lose {lost : List BatchQueueEntry}
    (accepted : after.accepted = system.shared.accepted)
    (charged : after.chain.charged = system.shared.chain.charged)
    (permutation : system.shared.waiting.Perm (lost ++ after.waiting))
    (told : TellsLosses environment config system label →
      (system.shared.waiting.map BatchQueueEntry.key).Nodup →
      (∀ entry ∈ system.shared.waiting, entry.messagingSink.isSome = true) →
      after.terminated = system.shared.terminated ++ lost) :
    Flow environment config system label after [] [] lost [] where
  transfer := .of_lose permutation
  accepted := by simp [accepted]
  charged := by rw [charged, List.append_nil]
  single := Nat.zero_le _
  connected := by simp
  offered := by simp
  fresh := by simp
  stored _ := rfl
  told := told

/-- A step after which the same entries wait. -/
theorem of_perm (accepted : after.accepted = system.shared.accepted)
    (charged : after.chain.charged = system.shared.chain.charged)
    (permutation : system.shared.waiting.Perm after.waiting)
    (notices : after.notices = system.shared.notices) :
    Flow environment config system label after [] [] [] [] := by
  apply of_lose accepted charged permutation
  intro _ _ _
  rw [List.append_nil, Shared.terminated, Shared.terminated, notices]

/-- A step that touches neither the queue nor the chain. -/
theorem of_same (accepted : after.accepted = system.shared.accepted)
    (chain : after.chain = system.shared.chain)
    (queue : after.batchQueue = system.shared.batchQueue)
    (notices : after.notices = system.shared.notices)
    (unmined : after.unmined = system.shared.unmined) :
    Flow environment config system label after [] [] [] [] := by
  refine of_perm accepted ?_ ?_ notices
  · rw [chain]
  · rw [Shared.waiting, Shared.waiting, queue, unmined]

end Flow

theorem Flow.keys_nodup_added {added settled lost dropped : List BatchQueueEntry}
    (flow : Flow environment config system label after added settled lost dropped) :
    (added.map BatchQueueEntry.key).Nodup := by
  have single := flow.single
  rcases added with - | ⟨entry, - | ⟨other, rest⟩⟩
  · exact List.nodup_nil
  · exact List.nodup_singleton _
  · simp at single

/-- After an eviction, or without one, the new entry is added to the queue. -/
private theorem acceptEntry_flow {task : TaskId} {layout : QueueLayout} {request : Request}
    {ref : Ref} {balance : Nat} {middle : Shared} {lost : List BatchQueueEntry}
    (running : system.handlers task = some (request, .enqueue ref balance))
    (lose : Flow environment config system (.enqueue task layout) middle [] [] lost []) :
    ∃ added dropped, Flow environment config system (.enqueue task layout)
      (middle.acceptEntry ref (System.newEntry environment request)) added [] lost dropped := by
  obtain ⟨kept, split, joined⟩ := lose.transfer
  have accepted := lose.accepted
  rw [List.append_nil, List.append_nil] at accepted
  by_cases queued : (System.newEntry environment request).key ∈
      middle.batchQueue.items.map BatchQueueEntry.key
  · have same : (middle.acceptEntry ref (System.newEntry environment request)).waiting =
        middle.waiting := by
      rw [Shared.waiting, Shared.waiting]
      exact congrArg (· ++ middle.unmined) (items_push_of_queued queued)
    refine ⟨[], [System.newEntry environment request],
      ⟨⟨kept, split, by rw [same]; exact joined⟩, ?_, lose.charged, Nat.zero_le _, by simp,
        by simp, by simp, ?_, lose.told⟩⟩
    · exact congrArg (· ++ [System.newEntry environment request]) accepted
    · intro accepts
      have waits : (System.newEntry environment request).key ∈
          middle.waiting.map BatchQueueEntry.key := by
        rw [Shared.waiting, List.map_append]
        exact List.mem_append_left _ queued
      refine absurd ?_ (System.When.running accepts running rfl)
      rw [(split.map _).mem_iff, List.map_append]
      exact List.mem_append_right _ ((joined.map _).mem_iff.mp waits)
  · have pushed : (middle.acceptEntry ref (System.newEntry environment request)).waiting.Perm
        (System.newEntry environment request :: middle.waiting) :=
      (items_push_perm queued).append_right middle.unmined
    refine ⟨[System.newEntry environment request], [],
      ⟨⟨kept, split, pushed.trans (joined.cons _)⟩, ?_, lose.charged, Nat.le_refl _,
        ?_, ?_, ?_, fun _ => rfl, lose.told⟩⟩
    · exact congrArg (· ++ [System.newEntry environment request]) accepted
    · intro entry member
      rw [List.mem_singleton.mp member]
      rfl
    · intro entry member
      rw [List.mem_singleton.mp member]
      exact ⟨task, request, ref, balance, .inl ⟨⟨layout, rfl⟩, running⟩, rfl, rfl⟩
    · intro free accepts entry member
      rw [List.mem_singleton.mp member]
      exact .inr (System.When.running accepts running rfl)

private theorem evict_perm {layout : QueueLayout} {fee : Nat} {ref : Ref}
    {target : BatchQueueEntry}
    (found : system.shared.evictionTarget layout system.locks fee = some (ref, target)) :
    target ∈ system.shared.waiting ∧
      system.shared.waiting.Perm
        (target :: ((system.shared.batchQueue.erase target.key).items ++
          system.shared.unmined)) := by
  obtain ⟨-, -, ⟨priority, member⟩, -⟩ := Shared.evictionTarget_eq_some found
  have queued := mem_items_of_mem member
  exact ⟨List.mem_append_left _ queued, (items_erase_perm queued).append_right _⟩

private theorem evict_flow {layout : QueueLayout} {fee : Nat} {ref : Ref}
    {target : BatchQueueEntry} {evicted : Shared}
    (found : system.shared.evictionTarget layout system.locks fee = some (ref, target))
    (removed : system.shared.evict layout ref target = .ok evicted) :
    Flow environment config system label evicted [] [] [target] [] := by
  obtain ⟨member, split⟩ := evict_perm found
  obtain ⟨userStates, cells, rfl⟩ := Shared.evict_eq_ok removed
  refine .of_lose rfl rfl split ?_
  intro _ _ connected
  apply Shared.terminated_notify_connected
  · rfl
  · intro entry entryMember
    rw [List.mem_singleton.mp entryMember]
    exact connected _ member

private theorem replace_flow {task : TaskId} {verifier : VerifierCall → Bool}
    {request : Request} {ref : Ref} {balance : Nat} {original : BatchQueueEntry}
    (running : system.handlers task = some (request, .replace ref balance))
    (stored : BatchState.getEntry system.shared.batchQueue request.addr
      request.noncedVerificationData.nonce = some original) :
    Flow environment config system (.replace task verifier)
      ((system.shared.notify [original] .proofReplaced).replaceEntry ref original
        (System.replacementEntry environment request original))
      [System.replacementEntry environment request original] [] [original] [] := by
  obtain ⟨⟨priority, member⟩, originalKey⟩ := BatchState.getEntry_eq_some stored
  have queued := mem_items_of_mem member
  have sameKey : (System.replacementEntry environment request original).key = original.key :=
    System.replacementEntry_key stored
  refine ⟨⟨(system.shared.batchQueue.erase original.key).items ++ system.shared.unmined, ?_, ?_⟩,
    rfl, by simp [Shared.replaceEntry, Shared.notify], Nat.le_refl _, ?_, ?_, ?_,
    fun _ => rfl, ?_⟩
  · exact (items_erase_perm queued).append_right _
  · exact (items_replace_perm sameKey).append_right _
  · intro entry entryMember
    rw [List.mem_singleton.mp entryMember]
    rfl
  · intro entry entryMember
    rw [List.mem_singleton.mp entryMember]
    exact ⟨task, request, ref, balance, .inr ⟨⟨verifier, rfl⟩, running⟩,
      congrArg Prod.fst originalKey, rfl⟩
  · intro free _ entry entryMember
    rw [List.mem_singleton.mp entryMember, sameKey]
    exact .inl (by simp)
  · intro _ _ connected
    apply Shared.terminated_notify_connected
    · rfl
    · intro entry entryMember
      rw [List.mem_singleton.mp entryMember]
      exact connected _ (List.mem_append_left _ queued)

private theorem extract_flow (layout : QueueLayout) (gasPrice blockNumber : Nat)
    (submitted : Submitted system.shared) (idle : system.shared.batch = none) :
    Flow environment config system label
      (system.shared.extract environment config layout gasPrice blockNumber) [] [] [] [] := by
  have nothing := Shared.unmined_of_none idle
  rcases Shared.extract_cases environment config layout gasPrice blockNumber system.shared with
    ⟨rest, permutation, equation⟩ | ⟨entries, rest, ⟨extracted⟩, equation⟩
  · rw [equation]
    refine .of_perm rfl rfl ?_ rfl
    exact (permutation.symm.map Prod.fst).append_right system.shared.unmined
  · have notMined : system.shared.chain.isMined system.shared.batches = false := by
      cases mined : system.shared.chain.isMined system.shared.batches with
      | false => rfl
      | true =>
          exact absurd (Chain.isMined_lt submitted.included_lt mined) (Nat.lt_irrefl _)
    have taken : Shared.unmined
        (system.shared.extract environment config layout gasPrice blockNumber) = entries := by
      rw [equation]
      simp [Shared.unmined, Shared.inFlight, notMined, Stage.isOpen]
    refine .of_perm (by rw [equation]) (by rw [equation]) ?_ (by rw [equation])
    rw [Shared.waiting, Shared.waiting, nothing, taken, List.append_nil, equation]
    exact (Shared.items_of_extracted extracted).trans List.perm_append_comm

private theorem restore_flow {layout : QueueLayout} {batch : InFlight} {restored : Shared}
    (submitted : Submitted system.shared)
    (current : system.shared.batch = some (batch, .failed))
    (ran : system.shared.restore layout config.maxQueueSize batch = some restored) :
    ∃ lost, Flow environment config system (.restore layout) restored [] [] lost [] := by
  have inFlight := Shared.unmined_of_not_mayBeMined submitted current rfl rfl
  have joined : system.shared.waiting.Perm
      (batch.entries ++ system.shared.batchQueue.items) := by
    rw [Shared.waiting, inFlight]
    exact List.perm_append_comm
  obtain ⟨queue, users, lost, equation, permutation⟩ := Shared.restore_eq_some ran
  have waiting : restored.waiting = queue.items := by
    have nothing : restored.unmined = [] := by
      rw [equation]
      exact Shared.unmined_of_restored rfl
    rw [Shared.waiting, nothing, List.append_nil, equation]
  refine ⟨lost, .of_lose (by rw [equation]) (by rw [equation]) ?_ ?_⟩
  · rw [waiting]
    exact joined.trans permutation
  · intro tells unique _
    have room := Shared.OfBatch.current tells current
    rw [Shared.restore_of_room room, Option.some.injEq] at ran
    have pushed := Shared.items_pushAll_perm ((joined.map _).nodup_iff.mp unique)
    have sameQueue := congrArg Shared.batchQueue (ran.trans equation)
    have sameNotices := congrArg Shared.notices ran
    simp only at sameQueue sameNotices
    rw [sameQueue] at pushed
    -- As many entries are queued as were queued and in flight before.
    have lengths := (permutation.symm.trans pushed.symm).length_eq
    rw [List.length_append] at lengths
    have nothing : lost = [] := List.length_eq_zero_iff.mp (by omega)
    rw [nothing, List.append_nil, Shared.terminated, Shared.terminated, sameNotices]

private theorem mine_flow {id blockNumber : Nat} {chain : Chain}
    (submitted : Submitted system.shared)
    (mined : system.shared.chain.mine environment config id blockNumber = some chain) :
    ∃ settled, Flow environment config system label { system.shared with chain := chain }
      [] settled [] [] := by
  obtain ⟨transaction, member, -, -, -, result⟩ := Chain.mine_eq_some mined
  obtain ⟨batch, stage, current, number, entries, -, stageIs, notMined⟩ :=
    submitted.owner transaction member
  have isOpen : stage.isOpen = true := by
    rcases stageIs with rfl | rfl
    · rfl
    · rfl
  have inFlight := Shared.unmined_of_open current isOpen notMined
  rcases result with ⟨_, _, -, -, included⟩ | ⟨-, included⟩
  · have nothing : Shared.unmined { system.shared with chain := chain } = [] := by
      apply Shared.unmined_of_mined
      · exact current
      · rw [Chain.isMined_append _ included, number]
        simp
    refine ⟨batch.entries, ⟨.of_settle ?_, by simp, ?_, Nat.zero_le _, by simp, by simp,
      by simp, fun _ => rfl, ?_⟩⟩
    · rw [Shared.waiting, Shared.waiting, inFlight, nothing, List.append_nil]
      exact List.perm_append_comm
    · rw [← entries]
      exact Chain.charged_append included
    · intro _ _ _
      rw [List.append_nil]
      rfl
  · have same : Shared.unmined { system.shared with chain := chain } =
        system.shared.unmined := by
      apply Shared.unmined_of_same
      · rfl
      · intro other
        simpa using Chain.isMined_append other included
    refine ⟨[], .of_perm rfl ?_ ?_ rfl⟩
    · simpa using Chain.charged_append included
    · rw [Shared.waiting, Shared.waiting, same]

/-- A flush for a user that cannot pay also ends the batch. -/
private theorem afterFlush_spec {origin : FlushOrigin} {shared : Shared}
    (submitted : Submitted shared)
    (waits : origin = .insufficientBalance →
      ∃ batch address, shared.batch = some (batch, .insufficient address)) :
    (shared.afterFlush origin).accepted = shared.accepted ∧
      (shared.afterFlush origin).chain = shared.chain ∧
      ∃ lost, shared.waiting.Perm (lost ++ (shared.afterFlush origin).waiting) ∧
        ((∀ entry ∈ shared.waiting, entry.messagingSink.isSome = true) →
          (shared.afterFlush origin).terminated = shared.terminated ++ lost) := by
  cases origin with
  | disabledVerifiers => exact ⟨rfl, rfl, [], .refl _, by simp [Shared.afterFlush]⟩
  | insufficientBalance =>
      obtain ⟨batch, address, current⟩ := waits rfl
      have inFlight := Shared.unmined_of_not_mayBeMined submitted current rfl rfl
      have reset : shared.afterFlush .insufficientBalance = shared.resetBatch batch := by
        simp [Shared.afterFlush, current]
      have nothing : (shared.resetBatch batch).unmined = [] := Shared.unmined_of_none rfl
      rw [reset]
      refine ⟨rfl, rfl, batch.entries, ?_, ?_⟩
      · rw [Shared.waiting, Shared.waiting, inFlight, nothing, List.append_nil]
        exact List.perm_append_comm
      · intro connected
        have sinks : ∀ entry ∈ batch.entries, entry.messagingSink.isSome = true := by
          intro entry member
          apply connected
          rw [Shared.waiting, inFlight]
          exact List.mem_append_right _ member
        exact Shared.terminated_notify_connected rfl sinks { shared with batch := none }

private theorem flush_spec (shared : Shared) :
    shared.waiting.Perm (shared.batchQueue.items ++ shared.flush.waiting) ∧
      ((∀ entry ∈ shared.waiting, entry.messagingSink.isSome = true) →
        shared.flush.terminated = shared.terminated ++ shared.batchQueue.items) := by
  constructor
  · exact .refl _
  · intro connected
    apply Shared.terminated_notify_connected rfl
    intro entry member
    exact connected entry (List.mem_append_left _ member)

private theorem removeUserProofs_spec (address : Address) (shared : Shared) :
    ∃ lost, shared.waiting.Perm (lost ++ (shared.removeUserProofs address).waiting) ∧
      ((∀ entry ∈ shared.waiting, entry.messagingSink.isSome = true) →
        (shared.removeUserProofs address).terminated = shared.terminated ++ lost) := by
  refine ⟨shared.batchQueue.items.filter fun entry => entry.sender = address, ?_, ?_⟩
  · rw [Shared.waiting, Shared.waiting, ← List.append_assoc]
    exact (Shared.removeUserProofs_perm address shared).append_right _
  · intro connected
    have removed : (shared.batchQueue.extractIf fun entry =>
        decide (entry.sender = address)).1.map Prod.fst =
        shared.batchQueue.items.filter fun entry => decide (entry.sender = address) := by
      simp [PriorityQueue.extractIf, PriorityQueue.items, List.filter_map, Function.comp_def]
    rw [← removed]
    apply Shared.terminated_notify_connected
    · rfl
    · intro entry member
      have queued := (List.mem_filter.mp (removed ▸ member)).1
      exact connected entry (List.mem_append_left _ queued)

/-- Every step is a flow. -/
theorem Change.flow (waits : FlushWaits system) (submitted : Submitted system.shared)
    (guarded : ErrorsAreFinal system label)
    (change : Change environment config system label after) :
    ∃ added settled lost dropped,
      Flow environment config system label after added settled lost dropped := by
  have quiet : ∀ {after : Shared}, Flow environment config system label after [] [] [] [] →
      ∃ added settled lost dropped,
        Flow environment config system label after added settled lost dropped :=
    fun flow => ⟨[], [], [], [], flow⟩
  cases change with
  | unchanged => exact quiet (.of_same rfl rfl rfl rfl rfl)
  | insertUser running => exact quiet (.of_same rfl rfl rfl rfl rfl)
  | enqueue running room =>
      obtain ⟨added, dropped, flow⟩ :=
        acceptEntry_flow running (.of_same rfl rfl rfl rfl rfl)
      exact ⟨added, [], [], dropped, flow⟩
  | evict running full found removed =>
      obtain ⟨added, dropped, flow⟩ := acceptEntry_flow running (evict_flow found removed)
      exact ⟨added, [], _, dropped, flow⟩
  | @evictPanics task layout request ref evictedRef balance target evicted running full found
      removed =>
      obtain ⟨-, split⟩ := evict_perm found
      obtain ⟨userStates, cells, equation⟩ := Shared.evict_eq_error removed
      refine ⟨[], [], [target], [], .of_lose (by rw [equation]) (by rw [equation]) ?_ ?_⟩
      · rw [equation]
        exact split
      · intro tells
        have covered := System.When.running tells running rfl full _ found
        obtain ⟨finished, completes⟩ :=
          @Shared.evict_ok_of_covered layout _ _ _ covered.2.1 covered.2.2
        rw [completes] at removed
        cases removed
  | replace running stored bumped valid => exact ⟨_, [], _, [], replace_flow running stored⟩
  | refuseReplacement running stored bumped invalid =>
      refine ⟨[], [], [], [], .of_lose rfl rfl (.refl _) ?_⟩
      intro tells
      have valid := System.When.running tells running rfl _ stored bumped
      rw [invalid] at valid
      cases valid
  | extract idle => exact quiet (extract_flow _ _ _ submitted idle)
  | advance current unsent later =>
      have isOpen := Stage.isOpen_of_isUnsent unsent
      have nextOpen := later.elim Stage.isOpen_of_isUnsent Stage.isOpen_of_isLost
      exact quiet (.of_same rfl rfl rfl rfl (Shared.unmined_enter current isOpen nextOpen))
  | @send answer label batch stage next labelled current unsent answered =>
      have isOpen := Stage.isOpen_of_isUnsent unsent
      have nextOpen : next.isOpen = true := by
        rcases answered with ⟨-, rfl⟩ | ⟨-, later⟩
        · rfl
        · exact later.elim Stage.isOpen_of_isUnsent Stage.isOpen_of_isLost
      have same : ((system.shared.broadcast batch).enter batch next).unmined =
          system.shared.unmined := by
        have sameBatch : (system.shared.broadcast batch).batch = some (batch, stage) := current
        rw [Shared.unmined_enter sameBatch isOpen nextOpen]
        exact Shared.unmined_of_same rfl fun _ => rfl
      refine quiet (.of_perm rfl rfl ?_ rfl)
      rw [Shared.waiting, Shared.waiting, same]
      rfl
  | giveUpWaiting current =>
      exact quiet (.of_same rfl rfl rfl rfl (Shared.unmined_enter current rfl rfl))
  | endCancel current =>
      exact quiet (.of_same rfl rfl rfl rfl (Shared.unmined_enter current rfl rfl))
  | @receipt batch id current included =>
      have closed : (system.shared.enter batch
          (.updatingUsers (sendersOf batch.entries))).unmined = [] :=
        Shared.unmined_of_closed rfl rfl
      refine ⟨[], [], system.shared.unmined, [], .of_lose rfl rfl ?_ ?_⟩
      · rw [Shared.waiting, Shared.waiting, closed, List.append_nil]
        exact List.perm_append_comm
      · intro tells _ _
        rw [Shared.unmined_of_mined current (Shared.OfBatch.current tells current),
          List.append_nil]
        rfl
  | @updateUser layout address batch users current member free =>
      obtain ⟨cells, equation⟩ := Shared.updateUser_eq layout address system.shared
      rw [equation]
      refine quiet (.of_same rfl rfl rfl rfl ?_)
      rw [Shared.unmined_of_closed current rfl, Shared.unmined_of_updating rfl]
  | @updateRestoredUser layout address batch users current member free =>
      obtain ⟨cells, equation⟩ := Shared.updateUser_eq layout address system.shared
      rw [equation]
      refine quiet (.of_same rfl rfl rfl rfl ?_)
      rw [Shared.unmined_of_closed current rfl, Shared.unmined_of_restored rfl]
  | @cleanupUser layout address batch users current free =>
      obtain ⟨cells, equation⟩ := Shared.cleanupUser_eq layout address system.shared
      rw [equation]
      refine quiet (.of_same rfl rfl rfl rfl ?_)
      rw [Shared.unmined_of_closed current rfl, Shared.unmined_of_cleaning rfl]
  | close current closed updated later =>
      have notOpen := Stage.not_isOpen_of_isClosed closed
      refine quiet (.of_same rfl rfl rfl rfl ?_)
      rw [Shared.unmined_of_closed current notOpen]
      rcases later with ⟨users, rfl⟩ | rfl
      · exact Shared.unmined_of_cleaning rfl
      · exact Shared.unmined_of_closed rfl rfl
  | endRestored current =>
      refine quiet (.of_same rfl rfl rfl rfl ?_)
      rw [Shared.unmined_of_restored current, Shared.unmined_of_none rfl]
  | @respond serializationFails batch current =>
      have nothing : (system.shared.respond serializationFails batch).unmined = [] :=
        Shared.unmined_of_none (Shared.respond_batch guarded current)
      refine ⟨[], [], [], [], .of_lose rfl rfl ?_ ?_⟩
      · rw [Shared.waiting, Shared.waiting, Shared.unmined_of_closed current rfl, nothing]
        exact .refl _
      · intro _ _ _
        rw [List.append_nil, Shared.terminated_respond]
  | restore current ran =>
      obtain ⟨lost, flow⟩ := restore_flow submitted current ran
      exact ⟨[], [], lost, [], flow⟩
  | flush =>
      obtain ⟨permutation, told⟩ := flush_spec system.shared
      exact ⟨[], [], _, [], .of_lose rfl rfl permutation fun _ _ => told⟩
  | @flushAndReset label origin stage labelled flushing =>
      obtain ⟨permutation, told⟩ := flush_spec system.shared
      have flushed : Submitted system.shared.flush := submitted.of_same rfl rfl rfl rfl
      obtain ⟨accepted, chain, lost, resetPermutation, resetTold⟩ :=
        afterFlush_spec flushed (fun same : origin = _ => waits _ (same ▸ flushing))
      refine ⟨[], [], system.shared.batchQueue.items ++ lost, [], .of_lose accepted ?_ ?_ ?_⟩
      · rw [chain]
        rfl
      · rw [List.append_assoc]
        exact permutation.trans (resetPermutation.append_left _)
      · intro _ _ connected
        rw [resetTold, told connected, List.append_assoc]
        intro entry member
        exact connected entry (permutation.mem_iff.mpr (List.mem_append_right _ member))
  | @insertNonpaying origin address nonce flushing configured =>
      have created : Submitted (system.shared.createUser address nonce) :=
        submitted.of_same rfl rfl rfl rfl
      obtain ⟨accepted, chain, lost, resetPermutation, resetTold⟩ :=
        afterFlush_spec created (fun same : origin = _ => waits _ (same ▸ flushing))
      refine ⟨[], [], lost, [], .of_lose accepted ?_ resetPermutation fun _ _ => resetTold⟩
      rw [chain]
      rfl
  | @removeUserProofs address polled =>
      obtain ⟨lost, permutation, told⟩ := removeUserProofs_spec address system.shared
      exact ⟨[], [], lost, [], .of_lose rfl rfl permutation fun _ _ => told⟩
  | mine mined =>
      obtain ⟨settled, flow⟩ := mine_flow submitted mined
      exact ⟨[], settled, [], [], flow⟩
  | dropTransaction => exact quiet (.of_perm rfl rfl (.refl _) rfl)
  | userCall called =>
      rw [Chain.userCall_eq_some called]
      exact quiet (.of_perm rfl rfl (.refl _) rfl)

end

theorem Shared.waiting_initial (config : Config) (chain : Chain) :
    (Shared.initial config chain).waiting = [] := by
  obtain ⟨userStates, cells, nextRef, equation⟩ := Shared.initial_eq config chain
  rw [equation]
  rfl

end AlignedLayer
