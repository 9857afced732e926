import AlignedLayer.Batcher.BatchState
import Mathlib.Logic.Function.Basic

/-!
# The cached state of a user

How the counters of a user are kept: incrementally when an entry is added,
replaced or evicted, and recomputed from the queue after a batch.
-/

namespace AlignedLayer

structure UserState where
  nonce : Nat
  lastMaxFeeLimit : Nat
  totalFeesInQueue : Nat
  proofsInBatch : Nat
  deriving DecidableEq

namespace UserState

def new (nonce : Nat) : UserState :=
  { nonce := nonce
    lastMaxFeeLimit := u256Max
    totalFeesInQueue := 0
    proofsInBatch := 0 }

/-- After an entry with this nonce and fee was added to the queue. -/
def addEntry (state : UserState) (nonce maxFee : Nat) : UserState :=
  { nonce := nonce + 1
    lastMaxFeeLimit := maxFee
    totalFeesInQueue := state.totalFeesInQueue + maxFee
    proofsInBatch := state.proofsInBatch + 1 }

/-- After one of the user's entries was replaced by one with a higher fee. -/
def replaceEntry (state : UserState) (minFeeInBatch feeDifference : Nat) : UserState :=
  { state with
    lastMaxFeeLimit := minFeeInBatch
    totalFeesInQueue := state.totalFeesInQueue + feeDifference }

/-- The assignments made for an evicted entry while the user has another one.
`proofs_in_batch` is a `usize` and wraps; a `U256` that would become negative
panics, and the error is the state the panic leaves. -/
def evictEntry (state : UserState) (removedMaxFee newLastMaxFeeLimit : Nat) :
    Except UserState UserState :=
  let proofsInBatch := if state.proofsInBatch = 0 then 2 ^ 64 - 1 else state.proofsInBatch - 1
  if state.nonce = 0 then
    .error { state with proofsInBatch }
  else if state.totalFeesInQueue < removedMaxFee then
    .error { state with proofsInBatch, nonce := state.nonce - 1 }
  else
    .ok
      { nonce := state.nonce - 1
        lastMaxFeeLimit := newLastMaxFeeLimit
        totalFeesInQueue := state.totalFeesInQueue - removedMaxFee
        proofsInBatch := proofsInBatch }

/-- Whether the subtractions for an evicted entry stay in range. -/
def coversEviction (state : UserState) (removedMaxFee : Nat) : Prop :=
  0 < state.proofsInBatch ∧ 0 < state.nonce ∧ removedMaxFee ≤ state.totalFeesInQueue

instance (state : UserState) (removedMaxFee : Nat) :
    Decidable (state.coversEviction removedMaxFee) :=
  inferInstanceAs (Decidable (_ ∧ _ ∧ _))

theorem evictEntry_of_covers {state : UserState} {removedMaxFee : Nat}
    (covered : state.coversEviction removedMaxFee) (newLastMaxFeeLimit : Nat) :
    state.evictEntry removedMaxFee newLastMaxFeeLimit =
      .ok
        { nonce := state.nonce - 1
          lastMaxFeeLimit := newLastMaxFeeLimit
          totalFeesInQueue := state.totalFeesInQueue - removedMaxFee
          proofsInBatch := state.proofsInBatch - 1 } := by
  obtain ⟨counted, numbered, paid⟩ := covered
  simp [evictEntry, Nat.pos_iff_ne_zero.mp counted, Nat.pos_iff_ne_zero.mp numbered,
    Nat.not_lt.mpr paid]

/-- What one finished eviction does, whatever the counters were. -/
theorem evictEntry_eq_ok {state after : UserState} {removedMaxFee newLastMaxFeeLimit : Nat}
    (evicted : state.evictEntry removedMaxFee newLastMaxFeeLimit = .ok after) :
    0 < state.nonce ∧ removedMaxFee ≤ state.totalFeesInQueue ∧
      after.nonce = state.nonce - 1 ∧ after.lastMaxFeeLimit = newLastMaxFeeLimit ∧
      after.totalFeesInQueue = state.totalFeesInQueue - removedMaxFee := by
  rw [evictEntry] at evicted
  split at evicted
  · cases evicted
  · split at evicted
    · cases evicted
    · cases evicted
      exact ⟨by omega, by omega, rfl, rfl, rfl⟩

/-- A panic comes before the total is written. -/
theorem evictEntry_eq_error {state after : UserState} {removedMaxFee newLastMaxFeeLimit : Nat}
    (panicked : state.evictEntry removedMaxFee newLastMaxFeeLimit = .error after) :
    after.totalFeesInQueue = state.totalFeesInQueue := by
  rw [evictEntry] at panicked
  split at panicked
  · cases panicked
    rfl
  · split at panicked
    · cases panicked
      rfl
    · cases panicked

end UserState

/-! ## Recomputing the counters -/

/-- One turn of the loop of `calculate_new_user_states_data`. -/
def addToUserStatesData (data : Address → Option (Nat × Nat × Nat)) (entry : BatchQueueEntry) :
    Address → Option (Nat × Nat × Nat) :=
  let (proofCount, maxFeeLimit, totalFees) := (data entry.sender).getD (0, entry.maxFee, 0)
  Function.update data entry.sender
    (some (proofCount + 1, min entry.maxFee maxFeeLimit, totalFees + entry.maxFee))

def calculateNewUserStatesData (layout : QueueLayout) (queue : BatchQueue) :
    Address → Option (Nat × Nat × Nat) :=
  ((queue.iter layout).map Prod.fst).foldl addToUserStatesData fun _ => none

/-- The fields `update_user_states_from_queue_state` writes for one user. -/
def UserState.updateFromQueue (layout : QueueLayout) (queue : BatchQueue) (address : Address)
    (state : UserState) : UserState :=
  match calculateNewUserStatesData layout queue address with
  | some (proofCount, minMaxFeeInQueue, totalFeesInQueue) =>
      { state with
        proofsInBatch := proofCount
        totalFeesInQueue := totalFeesInQueue
        lastMaxFeeLimit := minMaxFeeInQueue }
  | none =>
      { state with
        proofsInBatch := 0
        totalFeesInQueue := 0
        lastMaxFeeLimit := u256Max }

/-- `data` is the count, the lowest fee and the total of the entries. -/
private def Summarizes (data : Option (Nat × Nat × Nat)) (entries : List BatchQueueEntry) :
    Prop :=
  match data with
  | none => entries = []
  | some (proofCount, minFee, totalFees) =>
      proofCount = entries.length ∧ minFee ∈ entries.map BatchQueueEntry.maxFee ∧
        (∀ entry ∈ entries, minFee ≤ entry.maxFee) ∧
        totalFees = (entries.map BatchQueueEntry.maxFee).sum

private theorem addToUserStatesData_summarizes
    {data : Address → Option (Nat × Nat × Nat)} {seen : List BatchQueueEntry}
    (summarized : ∀ address, Summarizes (data address)
      (seen.filter fun entry => entry.sender = address))
    (entry : BatchQueueEntry) (address : Address) :
    Summarizes (addToUserStatesData data entry address)
      ((seen ++ [entry]).filter fun other => other.sender = address) := by
  by_cases same : entry.sender = address
  · subst same
    have before := summarized entry.sender
    rw [List.filter_append]
    cases found : data entry.sender with
    | none =>
        rw [found] at before
        simp only [Summarizes] at before
        simp [addToUserStatesData, found, Summarizes, before]
    | some values =>
        obtain ⟨proofCount, minFee, totalFees⟩ := values
        rw [found] at before
        obtain ⟨counted, member, least, summed⟩ := before
        simp only [addToUserStatesData, found, Option.getD_some, Function.update_self,
          Summarizes, List.filter_cons, decide_true, if_true, List.filter_nil,
          List.length_append, List.map_append, List.mem_append, List.sum_append,
          List.length_cons, List.length_nil, List.map_cons, List.map_nil, List.mem_singleton,
          List.sum_cons, List.sum_nil, ← counted, ← summed]
        refine ⟨trivial, ?_, ?_, by omega⟩
        · rcases Nat.le_total entry.maxFee minFee with below | above
          · exact .inr (Nat.min_eq_left below)
          · rw [Nat.min_eq_right above]
            exact .inl member
        · rintro other (inSeen | rfl)
          · exact (Nat.min_le_right _ _).trans (least other inSeen)
          · exact Nat.min_le_left _ _
  · have unchanged : addToUserStatesData data entry address = data address :=
      Function.update_of_ne (Ne.symm same) _ _
    rw [unchanged, List.filter_append]
    simpa [same] using summarized address

private theorem foldl_summarizes {entries seen : List BatchQueueEntry}
    {data : Address → Option (Nat × Nat × Nat)}
    (summarized : ∀ address, Summarizes (data address)
      (seen.filter fun entry => entry.sender = address)) (address : Address) :
    Summarizes (entries.foldl addToUserStatesData data address)
      ((seen ++ entries).filter fun entry => entry.sender = address) := by
  induction entries generalizing seen data with
  | nil => simpa using summarized address
  | cons entry rest induction =>
      have next := induction (addToUserStatesData_summarizes summarized entry)
      simpa using next

private theorem Summarizes.perm {data : Option (Nat × Nat × Nat)}
    {left right : List BatchQueueEntry} (summarized : Summarizes data left)
    (permutation : left.Perm right) : Summarizes data right := by
  cases data with
  | none =>
      simp only [Summarizes] at summarized ⊢
      subst summarized
      exact permutation.nil_eq.symm
  | some values =>
      obtain ⟨counted, member, least, summed⟩ := summarized
      exact ⟨counted.trans permutation.length_eq, (permutation.map _).mem_iff.mp member,
        fun entry inRight => least entry (permutation.mem_iff.mpr inRight),
        summed.trans (permutation.map _).sum_eq⟩

/-- The recomputed counters are those of the queue, in whatever order it is
iterated, and the limit is the one `get_user_min_fee_in_batch` reports. -/
theorem UserState.updateFromQueue_eq (layout : QueueLayout) (queue : BatchQueue)
    (address : Address) (state : UserState) :
    state.updateFromQueue layout queue address =
      { nonce := state.nonce
        lastMaxFeeLimit := BatchState.getUserMinFeeInBatch queue address
        totalFeesInQueue := ((queue.entriesOf address).map BatchQueueEntry.maxFee).sum
        proofsInBatch := (queue.entriesOf address).length } := by
  have permutation : (((queue.iter layout).map Prod.fst).filter fun entry =>
      entry.sender = address).Perm (queue.entriesOf address) :=
    ((layout.iter_perm queue.entries).map Prod.fst).filter _
  have summary : Summarizes (calculateNewUserStatesData layout queue address)
      (queue.entriesOf address) := by
    refine Summarizes.perm ?_ permutation
    exact @foldl_summarizes ((queue.iter layout).map Prod.fst) [] (fun _ => none)
      (fun _ => rfl) address
  rw [UserState.updateFromQueue]
  cases calculated : calculateNewUserStatesData layout queue address with
  | none =>
      rw [calculated] at summary
      simp only [Summarizes] at summary
      simp [BatchState.getUserMinFeeInBatch, summary]
  | some values =>
      obtain ⟨proofCount, minFee, totalFees⟩ := values
      rw [calculated] at summary
      obtain ⟨rfl, member, least, rfl⟩ := summary
      have smallest : ((queue.entriesOf address).map BatchQueueEntry.maxFee).min? =
          some minFee := by
        rw [List.min?_eq_some_iff]
        exact ⟨member, fun fee feeMember => by
          obtain ⟨entry, entryMember, rfl⟩ := List.mem_map.mp feeMember
          exact least entry entryMember⟩
      simp [BatchState.getUserMinFeeInBatch, smallest]

end AlignedLayer
