import AlignedLayer.Batcher.BatchFinalization
import AlignedLayer.Batcher.Restoration

/-!
# The batcher as one user sees it

For one address the batcher is an account: the entries of the batch in flight
that may come back, the queued entries and the cached user state.  What the
steps of the batcher do to an account is listed here once, with the conditions
under which the entries and the state are kept in agreement.
-/

namespace AlignedLayer

structure Account where
  inFlight : List BatchQueueEntry
  queued : List BatchQueueEntry
  state : Option UserState
  /-- The counters are about to be recomputed from the queue. -/
  outdated : Bool

/-- What a condition on a step grants about the entries of an account. -/
structure Account.Conditions where
  creatable : Nat → Prop
  evictable : BatchQueueEntry → Prop
  replacement : BatchQueueEntry → Prop
  settles : Prop
  restorable : Prop

/-- The lowest fee of the entries, or the highest possible one. -/
def lowestFee (entries : List BatchQueueEntry) : Nat :=
  (entries.map BatchQueueEntry.maxFee).min?.getD u256Max

def totalFee (entries : List BatchQueueEntry) : Nat :=
  (entries.map BatchQueueEntry.maxFee).sum

section Fees

variable {entries moved : List BatchQueueEntry} {entry : BatchQueueEntry}

@[simp] theorem totalFee_nil : totalFee [] = 0 := rfl

@[simp] theorem totalFee_cons : totalFee (entry :: entries) = entry.maxFee + totalFee entries := by
  simp [totalFee]

@[simp] theorem totalFee_append : totalFee (entries ++ moved) = totalFee entries + totalFee moved := by
  simp [totalFee]

theorem totalFee_perm (permutation : moved.Perm entries) : totalFee moved = totalFee entries :=
  (permutation.map _).sum_eq

theorem lowestFee_eq_of_lowest (member : entry ∈ entries)
    (lowest : ∀ other ∈ entries, entry.maxFee ≤ other.maxFee) :
    lowestFee entries = entry.maxFee := by
  have smallest : (entries.map BatchQueueEntry.maxFee).min? = some entry.maxFee := by
    rw [List.min?_eq_some_iff]
    refine ⟨List.mem_map_of_mem member, fun fee feeMember => ?_⟩
    obtain ⟨other, otherMember, rfl⟩ := List.mem_map.mp feeMember
    exact lowest other otherMember
  rw [lowestFee, smallest, Option.getD_some]

theorem exists_lowest (nonempty : entries ≠ []) :
    ∃ entry ∈ entries, ∀ other ∈ entries, entry.maxFee ≤ other.maxFee := by
  cases smallest : (entries.map BatchQueueEntry.maxFee).min? with
  | none =>
      rw [List.min?_eq_none_iff, List.map_eq_nil_iff] at smallest
      exact absurd smallest nonempty
  | some fee =>
      obtain ⟨stored, least⟩ := List.min?_eq_some_iff.mp smallest
      obtain ⟨entry, member, rfl⟩ := List.mem_map.mp stored
      exact ⟨entry, member, fun other otherMember => least _ (List.mem_map_of_mem otherMember)⟩

theorem lowestFee_le (member : entry ∈ entries) : lowestFee entries ≤ entry.maxFee := by
  obtain ⟨lowest, stored, least⟩ := exists_lowest (List.ne_nil_of_mem member)
  rw [lowestFee_eq_of_lowest stored least]
  exact least entry member

theorem lowestFee_perm (permutation : moved.Perm entries) : lowestFee moved = lowestFee entries := by
  by_cases empty : entries = []
  · subst empty
    rw [permutation.eq_nil]
  · obtain ⟨lowest, stored, least⟩ := exists_lowest empty
    rw [lowestFee_eq_of_lowest stored least]
    apply lowestFee_eq_of_lowest (permutation.mem_iff.mpr stored)
    exact fun other member => least other (permutation.mem_iff.mp member)

/-- A fee that the limit of the others admits is the lowest one. -/
theorem lowestFee_cons_of_le (limited : entry.maxFee ≤ lowestFee entries) :
    lowestFee (entry :: entries) = entry.maxFee := by
  apply lowestFee_eq_of_lowest List.mem_cons_self
  intro other member
  rcases List.mem_cons.mp member with rfl | earlier
  · exact Nat.le_refl _
  · exact limited.trans (lowestFee_le earlier)

end Fees

/-- The counters as `update_user_states_from_queue_state` writes them. -/
def UserState.recounted (state : UserState) (entries : List BatchQueueEntry) : UserState :=
  { nonce := state.nonce
    lastMaxFeeLimit := lowestFee entries
    totalFeesInQueue := totalFee entries
    proofsInBatch := entries.length }

namespace Account

def live (account : Account) : List BatchQueueEntry :=
  account.inFlight ++ account.queued

theorem live_perm_of_cons {account : Account} {entry : BatchQueueEntry}
    {queued : List BatchQueueEntry} (removed : account.queued.Perm (entry :: queued)) :
    account.live.Perm (entry :: (account.inFlight ++ queued)) :=
  (removed.append_left _).trans List.perm_middle

theorem live_of_settled {account : Account} (settled : account.inFlight = []) :
    account.live = account.queued := by
  rw [live, settled, List.nil_append]

/-- The state after the update for an evicted entry, which may panic. -/
def evictedState (state : UserState) (entry last : BatchQueueEntry) : UserState :=
  match state.evictEntry entry.maxFee last.maxFee with
  | .ok evicted => evicted
  | .error panicked => panicked

/-- The nonce is written before anything can panic, unless it is 0. -/
theorem evictedState_nonce {state : UserState} {entry last : BatchQueueEntry}
    (positive : 0 < state.nonce) : (evictedState state entry last).nonce = state.nonce - 1 := by
  rw [evictedState, UserState.evictEntry, if_neg (Nat.ne_of_gt positive)]
  split
  · next result =>
      split at result
      · cases result
      · cases result
        rfl
  · next result =>
      split at result
      · cases result
        rfl
      · cases result

inductive Step (conditions : Conditions) : Account → Account → Prop where
  | keep {account : Account} {queued : List BatchQueueEntry}
      (moved : queued.Perm account.queued) :
      Step conditions account { account with queued }
  | create {account : Account} {nonce : Nat} (nothing : account.live = [])
      (granted : conditions.creatable nonce) :
      Step conditions account { account with state := some (UserState.new nonce) }
  | accept {account : Account} {state : UserState} {entry : BatchQueueEntry}
      {queued : List BatchQueueEntry} (known : account.state = some state)
      (stored : queued.Perm (entry :: account.queued))
      (fresh : ∀ other ∈ account.live, other.nonce ≠ entry.nonce)
      (next : state.nonce = entry.nonce) (limited : entry.maxFee ≤ state.lastMaxFeeLimit) :
      Step conditions account
        { account with
          queued
          state := some (state.addEntry entry.nonce entry.maxFee) }
  | evict {account : Account} {state : UserState} {entry last : BatchQueueEntry}
      {queued : List BatchQueueEntry} (known : account.state = some state)
      (removed : account.queued.Perm (entry :: queued))
      (others : ∀ other ∈ queued, other.nonce ≠ entry.nonce) (left : last ∈ queued)
      (granted : conditions.evictable entry) :
      Step conditions account
        { account with
          queued
          state := some (evictedState state entry last) }
  | evictOnly {account : Account} {state : UserState} {entry : BatchQueueEntry}
      (known : account.state = some state) (only : account.queued.Perm [entry])
      (granted : conditions.evictable entry) :
      Step conditions account
        { account with
          queued := []
          state := none }
  | replace {account : Account} {state : UserState} {original replacement : BatchQueueEntry}
      {others queued : List BatchQueueEntry} (known : account.state = some state)
      (before : account.queued.Perm (original :: others))
      (after : queued.Perm (replacement :: others)) (nonce : replacement.nonce = original.nonce)
      (bumped : original.maxFee ≤ replacement.maxFee)
      (valid : ∀ other ∈ others, other.nonce < replacement.nonce →
        replacement.maxFee ≤ other.maxFee)
      (granted : conditions.replacement replacement) :
      Step conditions account
        { account with
          queued
          state := some (state.replaceEntry (lowestFee queued)
            (replacement.maxFee - original.maxFee)) }
  | take {account : Account} {taken queued : List BatchQueueEntry} (idle : account.inFlight = [])
      (moved : account.queued.Perm (taken ++ queued))
      (ahead : ∀ low ∈ taken, ∀ high ∈ queued, low.priority ≤ high.priority) :
      Step conditions account
        { account with
          inFlight := taken
          queued }
  | settle {account : Account} {outdated : Bool}
      (users : account.inFlight ≠ [] → outdated = true)
      (waits : account.outdated = true → outdated = true) (granted : conditions.settles) :
      Step conditions account
        { account with
          inFlight := []
          outdated }
  | recompute {account : Account} {outdated : Bool} (settled : account.inFlight = []) :
      Step conditions account
        { account with
          state := account.state.map fun state => state.recounted account.queued
          outdated }
  | unlimit {account : Account} (nothing : account.live = []) :
      Step conditions account
        { account with
          state := account.state.map fun state => { state with lastMaxFeeLimit := u256Max } }
  | restore {account : Account} {queued : List BatchQueueEntry} {outdated : Bool}
      (stored : queued.Perm (account.inFlight ++ account.queued))
      (users : account.inFlight ≠ [] → outdated = true) (current : account.outdated = false)
      (granted : conditions.restorable) :
      Step conditions account
        { account with
          inFlight := []
          queued
          outdated }
  | forget {account : Account} {inFlight : List BatchQueueEntry}
      (subset : inFlight = account.inFlight ∨ inFlight = []) :
      Step conditions account
        { account with
          inFlight
          queued := []
          state := none }

/-- A state comes from nowhere only where one may be created. -/
theorem Step.creates {conditions : Conditions} {account next : Account}
    (step : Step conditions account next) (absent : account.state = none)
    (present : next.state ≠ none) : ∃ nonce, conditions.creatable nonce := by
  cases step with
  | create nothing granted => exact ⟨_, granted⟩
  | accept known _ _ _ _ | evict known _ _ _ _ | evictOnly known _ _
  | replace known _ _ _ _ _ _ =>
      rw [absent] at known
      cases known
  | recompute settled => exact absurd (by rw [absent]; rfl) present
  | unlimit nothing => exact absurd (by rw [absent]; rfl) present
  | forget subset => exact absurd rfl present
  | keep _ | take _ _ _ | settle _ _ _ | restore _ _ _ _ => exact absurd absent present

end Account

end AlignedLayer
