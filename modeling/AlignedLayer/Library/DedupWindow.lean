import Mathlib.Data.List.Nodup
import Mathlib.Data.List.Perm.Basic
import Mathlib.Logic.Function.Basic

/-!
# Forwarding once within a window

Items are delivered again and again, and each is passed on unless its key is
held.  A key is held from its delivery until some time after the item was
taken.  So every delivered item is passed on, and two items with one key are
taken apart.
-/

namespace AlignedLayer

structure DedupWindow (Item Key : Type) where
  now : Nat
  held : Key → Bool
  /-- The keys that are to be removed, each with the earliest time. -/
  removals : List (Key × Nat)
  /-- The item that waits to be taken. -/
  sending : Option Item
  /-- History: all items, oldest first. -/
  delivered : List Item
  /-- History: the items that were taken, with the time. -/
  forwarded : List (Item × Nat)

namespace DedupWindow

variable {Item Key : Type} (key : Item → Key) (interval : Nat)

def new : DedupWindow Item Key where
  now := 0
  held _ := false
  removals := []
  sending := none
  delivered := []
  forwarded := []

def deliver [DecidableEq Key] (item : Item) (window : DedupWindow Item Key) : DedupWindow Item Key :=
  if window.held (key item) then
    { window with delivered := window.delivered ++ [item] }
  else
    { window with
      held := Function.update window.held (key item) true
      sending := some item
      delivered := window.delivered ++ [item] }

def take (window : DedupWindow Item Key) : Option (DedupWindow Item Key) :=
  match window.sending with
  | none => none
  | some item =>
      some { window with
        removals := window.removals ++ [(key item, window.now + interval)]
        sending := none
        forwarded := window.forwarded ++ [(item, window.now)] }

/-- A removal whose time has come.  It waits for an item that is being sent. -/
def remove [DecidableEq Key] (position : Nat) (window : DedupWindow Item Key) : Option (DedupWindow Item Key) :=
  match window.removals[position]? with
  | none => none
  | some (held, due) =>
      if due ≤ window.now ∧ window.sending.isNone then
        some { window with
          held := Function.update window.held held false
          removals := window.removals.eraseIdx position }
      else
        none

def wait (duration : Nat) (window : DedupWindow Item Key) : DedupWindow Item Key :=
  { window with now := window.now + duration }

/-- Every delivered item has been taken, or is the one that waits for it. -/
def ForwardsAll (window : DedupWindow Item Key) : Prop :=
  ∀ item ∈ window.delivered,
    (∃ entry ∈ window.forwarded, key entry.1 = key item) ∨
      ∃ waiting ∈ window.sending, key waiting = key item

/-- Between two items with one key lies the interval. -/
def Apart (window : DedupWindow Item Key) : Prop :=
  window.forwarded.Pairwise fun earlier later =>
    key earlier.1 = key later.1 → earlier.2 + interval ≤ later.2

/-- A key is held for one reason: it waits, or one removal will come. -/
structure Tracked (window : DedupWindow Item Key) : Prop where
  held : ∀ found, window.held found = true ↔
    found ∈ window.removals.map Prod.fst ∨ found ∈ window.sending.toList.map key
  once : (window.removals.map Prod.fst ++ window.sending.toList.map key).Nodup
  known : ∀ found ∈ window.removals.map Prod.fst, ∃ entry ∈ window.forwarded, key entry.1 = found
  due : ∀ entry ∈ window.forwarded, entry.2 + interval ≤ window.now ∨
    (key entry.1, entry.2 + interval) ∈ window.removals
  apart : window.Apart key interval
  forwardsAll : window.ForwardsAll key

variable {key interval} {window next : DedupWindow Item Key}

theorem take_of_waiting {item : Item} (waits : window.sending = some item) :
    ∃ next, window.take key interval = some next ∧
      next.forwarded = window.forwarded ++ [(item, window.now)] := by
  rw [take, waits]
  exact ⟨_, rfl, rfl⟩

namespace Tracked

theorem new : (new : DedupWindow Item Key).Tracked key interval where
  held found := by simp [DedupWindow.new]
  once := List.nodup_nil
  known found member := by cases member
  due entry member := by cases member
  apart := List.Pairwise.nil
  forwardsAll item member := by cases member

theorem wait (tracked : window.Tracked key interval) (duration : Nat) :
    (window.wait duration).Tracked key interval where
  held := tracked.held
  once := tracked.once
  known := tracked.known
  due entry member := by
    rcases tracked.due entry member with passed | pending
    · exact .inl (Nat.le_trans passed (Nat.le_add_right _ _))
    · exact .inr pending
  apart := tracked.apart
  forwardsAll := tracked.forwardsAll

/-- A delivery is taken in while nothing is being sent. -/
theorem deliver [DecidableEq Key] (tracked : window.Tracked key interval)
    (idle : window.sending = none) (item : Item) :
    (window.deliver key item).Tracked key interval := by
  have nothing : window.sending.toList = [] := by rw [idle, Option.toList_none]
  rw [DedupWindow.deliver]
  split
  · rename_i held
    refine ⟨tracked.held, tracked.once, tracked.known, tracked.due, tracked.apart, ?_⟩
    intro other member
    rcases List.mem_append.mp member with old | new
    · exact tracked.forwardsAll other old
    · rw [List.mem_singleton.mp new]
      left
      rcases (tracked.held _).mp held with pending | waiting
      · exact tracked.known _ pending
      · rw [nothing] at waiting
        cases waiting
  · rename_i free
    have absent : key item ∉ window.removals.map Prod.fst := by
      intro pending
      exact free ((tracked.held _).mpr (.inl pending))
    refine ⟨?_, ?_, tracked.known, tracked.due, tracked.apart, ?_⟩
    · intro found
      by_cases same : found = key item
      · simp [same]
      · dsimp only
        rw [Function.update_of_ne same, tracked.held, nothing]
        simp [same]
    · have once := tracked.once
      rw [nothing, List.map_nil, List.append_nil] at once
      simpa using List.nodup_append'.mpr ⟨once, List.nodup_singleton (key item), by simpa using absent⟩
    · intro other member
      rcases List.mem_append.mp member with old | new
      · rcases tracked.forwardsAll other old with taken | ⟨waiting, isWaiting, -⟩
        · exact .inl taken
        · rw [idle] at isWaiting
          cases isWaiting
      · rw [List.mem_singleton.mp new]
        exact .inr ⟨item, rfl, rfl⟩

theorem take (tracked : window.Tracked key interval)
    (taken : window.take key interval = some next) : next.Tracked key interval := by
  rw [DedupWindow.take] at taken
  split at taken
  · cases taken
  · rename_i item waits
    cases taken
    have once := tracked.once
    rw [waits, Option.toList_some, List.map_singleton] at once
    have absent : key item ∉ window.removals.map Prod.fst := by
      intro pending
      exact (List.nodup_append'.mp once).2.2 pending List.mem_cons_self
    refine ⟨?_, ?_, ?_, ?_, ?_, ?_⟩
    · intro found
      rw [tracked.held, waits]
      simp
    · simpa using once
    · intro found member
      rw [List.map_append, List.mem_append] at member
      rcases member with old | new
      · obtain ⟨entry, isForwarded, same⟩ := tracked.known found old
        exact ⟨entry, List.mem_append_left _ isForwarded, same⟩
      · rw [List.map_singleton, List.mem_singleton] at new
        exact ⟨(item, window.now), List.mem_append_right _ List.mem_cons_self, new.symm⟩
    · intro entry member
      rcases List.mem_append.mp member with old | new
      · rcases tracked.due entry old with passed | pending
        · exact .inl passed
        · exact .inr (List.mem_append_left _ pending)
      · rw [List.mem_singleton.mp new]
        exact .inr (List.mem_append_right _ List.mem_cons_self)
    · refine List.pairwise_append.mpr ⟨tracked.apart, List.pairwise_singleton _ _, ?_⟩
      intro earlier old later new same
      rw [List.mem_singleton.mp new] at same ⊢
      -- While the key of an earlier item is to be removed, no other one waits.
      rcases tracked.due earlier old with passed | pending
      · exact passed
      · rw [same] at pending
        exact absurd (List.mem_map_of_mem pending) absent
    · intro other member
      left
      rcases tracked.forwardsAll other member with ⟨entry, old, same⟩ | ⟨waiting, isWaiting, same⟩
      · exact ⟨entry, List.mem_append_left _ old, same⟩
      · rw [waits, Option.mem_some_iff] at isWaiting
        subst isWaiting
        exact ⟨(item, window.now), List.mem_append_right _ List.mem_cons_self, same⟩

theorem remove [DecidableEq Key] (tracked : window.Tracked key interval) {position : Nat}
    (removed : window.remove position = some next) : next.Tracked key interval := by
  rw [DedupWindow.remove] at removed
  split at removed
  · cases removed
  · rename_i held due isPending
    split at removed
    · rename_i due_idle
      obtain ⟨passed, idle⟩ := due_idle
      rw [Option.isNone_iff_eq_none] at idle
      cases removed
      obtain ⟨bound, atPosition⟩ := List.getElem?_eq_some_iff.mp isPending
      have parts : ((held, due) :: window.removals.eraseIdx position).Perm window.removals := by
        rw [← atPosition]
        exact List.getElem_cons_eraseIdx_perm bound
      have once := tracked.once
      rw [idle, Option.toList_none, List.map_nil, List.append_nil,
        ← (parts.map Prod.fst).nodup_iff, List.map_cons, List.nodup_cons] at once
      refine ⟨?_, ?_, ?_, ?_, tracked.apart, tracked.forwardsAll⟩
      · intro found
        dsimp only
        by_cases same : found = held
        · subst same
          rw [Function.update_self, idle]
          simpa using once.1
        · rw [Function.update_of_ne same, tracked.held, idle, ← (parts.map Prod.fst).mem_iff]
          simp [same]
      · rw [idle, Option.toList_none, List.map_nil, List.append_nil]
        exact once.2
      · intro found member
        apply tracked.known
        rw [← (parts.map Prod.fst).mem_iff]
        exact List.mem_cons_of_mem _ member
      · intro entry member
        rcases tracked.due entry member with before | pending
        · exact .inl before
        · rw [← parts.mem_iff] at pending
          rcases List.mem_cons.mp pending with this | other
          · left
            rw [Prod.mk.injEq] at this
            rw [this.2]
            exact passed
          · exact .inr other
    · cases removed

end Tracked

end DedupWindow

end AlignedLayer
