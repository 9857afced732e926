import Mathlib.Data.List.MinMax
import Mathlib.Data.List.Nodup
import Mathlib.Data.List.Perm.Basic

/-!
# Keyed priority queues with an unspecified layout

A queue holds at most one entry for each key.  Nothing is promised about the
order in which its entries are iterated, nor about which of several entries
of the highest priority is popped first: a `Layout` stands for one such
choice, and every operation that depends on it takes the layout as an
argument.
-/

namespace AlignedLayer

/-- One choice of iteration order and of the order in which ties for the
highest priority are resolved. -/
structure Layout (Entry : Type) where
  iter : List Entry → List Entry
  heap : List Entry → List Entry
  iter_perm : ∀ entries, (iter entries).Perm entries
  heap_perm : ∀ entries, (heap entries).Perm entries

/-- The layout that keeps the order of insertion. -/
def Layout.insertion (Entry : Type) : Layout Entry :=
  { iter := id
    heap := id
    iter_perm := fun _ => .refl _
    heap_perm := fun _ => .refl _ }

structure PriorityQueue {Item Key : Type} (key : Item → Key) (Priority : Type) where
  entries : List (Item × Priority)
  unique : (entries.map fun entry => key entry.1).Nodup

namespace PriorityQueue

variable {Item Key Priority : Type} {key : Item → Key}

def empty : PriorityQueue key Priority :=
  ⟨[], List.nodup_nil⟩

def len (queue : PriorityQueue key Priority) : Nat :=
  queue.entries.length

def items (queue : PriorityQueue key Priority) : List Item :=
  queue.entries.map Prod.fst

def iter (layout : Layout (Item × Priority)) (queue : PriorityQueue key Priority) :
    List (Item × Priority) :=
  layout.iter queue.entries

/-- Keeps the entries whose item satisfies `keep`. -/
def retain (keep : Item → Bool) (queue : PriorityQueue key Priority) :
    PriorityQueue key Priority :=
  ⟨queue.entries.filter fun entry => keep entry.1,
    queue.unique.sublist (List.filter_sublist.map _)⟩

/-- Removes the entries whose item satisfies `predicate` and returns them. -/
def extractIf (predicate : Item → Bool) (queue : PriorityQueue key Priority) :
    List (Item × Priority) × PriorityQueue key Priority :=
  (queue.entries.filter fun entry => predicate entry.1,
    queue.retain fun item => !predicate item)

private theorem append_keys_nodup {item : Item} {priority : Priority}
    {entries : List (Item × Priority)}
    (unique : (entries.map fun entry => key entry.1).Nodup)
    (absent : ¬ ∃ entry ∈ entries, key entry.1 = key item) :
    ((entries ++ [(item, priority)]).map fun entry => key entry.1).Nodup := by
  rw [List.map_append, List.nodup_append]
  refine ⟨unique, by simp, ?_⟩
  intro left leftMember right rightMember same
  obtain ⟨entry, member, rfl⟩ := List.mem_map.mp leftMember
  simp only [List.map_cons, List.map_nil, List.mem_singleton] at rightMember
  exact absent ⟨entry, member, same.trans rightMember⟩

section Keyed

variable [DecidableEq Key]

def find? (queue : PriorityQueue key Priority) (wanted : Key) : Option (Item × Priority) :=
  queue.entries.find? fun entry => key entry.1 = wanted

def erase (queue : PriorityQueue key Priority) (wanted : Key) :
    PriorityQueue key Priority :=
  queue.retain fun item => key item ≠ wanted

/-- Removes the entry that has the key of `item`. -/
def remove (queue : PriorityQueue key Priority) (item : Item) :
    Option (Item × Priority) × PriorityQueue key Priority :=
  (queue.find? (key item), queue.erase (key item))

private theorem reprioritize_keys (item : Item) (priority : Priority)
    (entries : List (Item × Priority)) :
    (entries.map fun entry =>
        if key entry.1 = key item then (entry.1, priority) else entry).map
      (fun entry => key entry.1) = entries.map fun entry => key entry.1 := by
  induction entries with
  | nil => rfl
  | cons head tail induction =>
      simp only [List.map_cons, induction]
      split <;> rfl

/-- Pushing an item whose key is present keeps the stored item and only
replaces its priority. -/
def push (queue : PriorityQueue key Priority) (item : Item) (priority : Priority) :
    PriorityQueue key Priority :=
  if present : ∃ entry ∈ queue.entries, key entry.1 = key item then
    ⟨queue.entries.map fun entry =>
        if key entry.1 = key item then (entry.1, priority) else entry, by
      rw [reprioritize_keys]
      exact queue.unique⟩
  else
    ⟨queue.entries ++ [(item, priority)], append_keys_nodup queue.unique present⟩

/-- Pushes the entries of a list one after another. -/
def pushAll (queue : PriorityQueue key Priority) :
    List (Item × Priority) → PriorityQueue key Priority
  | [] => queue
  | entry :: rest => (queue.push entry.1 entry.2).pushAll rest

section Ordered

variable [LinearOrder Priority]

/-- An entry of the highest priority. -/
def peek (layout : Layout (Item × Priority)) (queue : PriorityQueue key Priority) :
    Option (Item × Priority) :=
  (layout.heap queue.entries).argmax Prod.snd

def pop (layout : Layout (Item × Priority)) (queue : PriorityQueue key Priority) :
    Option ((Item × Priority) × PriorityQueue key Priority) :=
  (queue.peek layout).map fun top => (top, queue.erase (key top.1))

end Ordered

end Keyed

/-! ## Reading a queue -/

@[simp] theorem entries_empty : (empty : PriorityQueue key Priority).entries = [] := rfl

@[simp] theorem entries_retain (keep : Item → Bool) (queue : PriorityQueue key Priority) :
    (queue.retain keep).entries = queue.entries.filter fun entry => keep entry.1 := rfl

theorem mem_iter {layout : Layout (Item × Priority)} {queue : PriorityQueue key Priority}
    {entry : Item × Priority} :
    entry ∈ queue.iter layout ↔ entry ∈ queue.entries :=
  (layout.iter_perm queue.entries).mem_iff

theorem items_length (queue : PriorityQueue key Priority) :
    queue.items.length = queue.len :=
  List.length_map _

theorem mem_items {queue : PriorityQueue key Priority} {item : Item} :
    item ∈ queue.items ↔ ∃ priority, (item, priority) ∈ queue.entries := by
  simp [items]

/-- Two entries of one queue that share a key are the same entry. -/
theorem eq_of_key_eq {queue : PriorityQueue key Priority} {left right : Item × Priority}
    (leftMember : left ∈ queue.entries) (rightMember : right ∈ queue.entries)
    (same : key left.1 = key right.1) : left = right :=
  List.inj_on_of_nodup_map queue.unique leftMember rightMember same

section Ordered

variable [LinearOrder Priority]

theorem peek_eq_none {layout : Layout (Item × Priority)} {queue : PriorityQueue key Priority} :
    queue.peek layout = none ↔ queue.entries = [] := by
  rw [peek, List.argmax_eq_none]
  constructor
  · intro emptyHeap
    exact ((layout.heap_perm queue.entries).symm.trans (by rw [emptyHeap])).eq_nil
  · intro emptyQueue
    exact ((layout.heap_perm queue.entries).trans (by rw [emptyQueue])).eq_nil

theorem peek_mem {layout : Layout (Item × Priority)} {queue : PriorityQueue key Priority}
    {top : Item × Priority} (peeked : queue.peek layout = some top) :
    top ∈ queue.entries :=
  (layout.heap_perm queue.entries).mem_iff.mp (List.argmax_mem peeked)

theorem le_of_peek {layout : Layout (Item × Priority)} {queue : PriorityQueue key Priority}
    {top entry : Item × Priority} (peeked : queue.peek layout = some top)
    (member : entry ∈ queue.entries) : entry.2 ≤ top.2 :=
  List.le_of_mem_argmax ((layout.heap_perm queue.entries).mem_iff.mpr member) peeked

end Ordered

section Keyed

variable [DecidableEq Key]

theorem find?_eq_some {queue : PriorityQueue key Priority} {wanted : Key}
    {entry : Item × Priority} (found : queue.find? wanted = some entry) :
    entry ∈ queue.entries ∧ key entry.1 = wanted := by
  refine ⟨List.mem_of_find?_eq_some found, ?_⟩
  simpa using List.find?_some found

theorem find?_eq_none {queue : PriorityQueue key Priority} {wanted : Key} :
    queue.find? wanted = none ↔ ∀ entry ∈ queue.entries, key entry.1 ≠ wanted := by
  simp [find?, List.find?_eq_none]

theorem find?_of_mem {queue : PriorityQueue key Priority} {entry : Item × Priority}
    (member : entry ∈ queue.entries) : queue.find? (key entry.1) = some entry := by
  cases found : queue.find? (key entry.1) with
  | none => exact (find?_eq_none.mp found entry member rfl).elim
  | some other =>
      obtain ⟨otherMember, same⟩ := find?_eq_some found
      rw [eq_of_key_eq otherMember member same]

theorem mem_erase {queue : PriorityQueue key Priority} {wanted : Key}
    {entry : Item × Priority} :
    entry ∈ (queue.erase wanted).entries ↔ entry ∈ queue.entries ∧ key entry.1 ≠ wanted := by
  simp [erase]

/-- A queue is the entry under one of its keys together with the rest. -/
theorem perm_erase {queue : PriorityQueue key Priority} {entry : Item × Priority}
    (member : entry ∈ queue.entries) :
    queue.entries.Perm (entry :: (queue.erase (key entry.1)).entries) := by
  have nodup : queue.entries.Nodup := queue.unique.of_map
  have erased : (queue.erase (key entry.1)).entries.Nodup := nodup.filter _
  have absent : entry ∉ (queue.erase (key entry.1)).entries := by
    simp [mem_erase]
  refine (List.perm_ext_iff_of_nodup nodup (List.nodup_cons.mpr ⟨absent, erased⟩)).mpr ?_
  intro other
  rw [List.mem_cons, mem_erase]
  constructor
  · intro otherMember
    by_cases same : key other.1 = key entry.1
    · exact .inl (eq_of_key_eq otherMember member same)
    · exact .inr ⟨otherMember, same⟩
  · rintro (rfl | ⟨otherMember, -⟩)
    · exact member
    · exact otherMember

theorem len_erase {queue : PriorityQueue key Priority} {entry : Item × Priority}
    (member : entry ∈ queue.entries) :
    (queue.erase (key entry.1)).len + 1 = queue.len := by
  have lengths := (perm_erase member).length_eq
  simpa [len] using lengths.symm

theorem push_of_absent {queue : PriorityQueue key Priority} {item : Item}
    (absent : ∀ entry ∈ queue.entries, key entry.1 ≠ key item) (priority : Priority) :
    (queue.push item priority).entries = queue.entries ++ [(item, priority)] := by
  have missing : ¬ ∃ entry ∈ queue.entries, key entry.1 = key item := by
    rintro ⟨entry, member, same⟩
    exact absent entry member same
  simp [push, missing]

theorem push_perm {queue : PriorityQueue key Priority} {item : Item}
    (absent : ∀ entry ∈ queue.entries, key entry.1 ≠ key item) (priority : Priority) :
    (queue.push item priority).entries.Perm ((item, priority) :: queue.entries) := by
  rw [push_of_absent absent]
  exact List.perm_append_singleton _ _

theorem items_push_of_present {queue : PriorityQueue key Priority} {item : Item}
    (present : ∃ entry ∈ queue.entries, key entry.1 = key item) (priority : Priority) :
    (queue.push item priority).items = queue.items := by
  have unchanged : ∀ entry : Item × Priority,
      (if key entry.1 = key item then (entry.1, priority) else entry).1 = entry.1 := by
    intro entry
    split <;> rfl
  simp only [push, dif_pos present, items, List.map_map]
  exact List.map_congr_left fun entry _ => unchanged entry

/-- A stored entry was stored before, or has got the priority of the item. -/
theorem mem_push {queue : PriorityQueue key Priority} {item : Item} {priority : Priority}
    {stored : Item × Priority} (member : stored ∈ (queue.push item priority).entries) :
    stored ∈ queue.entries ∨
      stored.2 = priority ∧ key stored.1 = key item ∧ (stored.1 = item ∨ stored.1 ∈ queue.items) := by
  rw [push] at member
  split at member
  · obtain ⟨before, beforeMember, rfl⟩ := List.mem_map.mp member
    by_cases same : key before.1 = key item
    · rw [if_pos same]
      exact .inr ⟨rfl, same, .inr (mem_items.mpr ⟨before.2, beforeMember⟩)⟩
    · rw [if_neg same]
      exact .inl beforeMember
  · rcases List.mem_append.mp member with before | new
    · exact .inl before
    · rw [List.mem_singleton.mp new]
      exact .inr ⟨rfl, rfl, .inl rfl⟩

theorem len_push_le (queue : PriorityQueue key Priority) (item : Item) (priority : Priority) :
    (queue.push item priority).len ≤ queue.len + 1 := by
  rw [push]
  split
  · simp [len]
  · simp [len]

theorem pushAll_perm {queue : PriorityQueue key Priority} {pushed : List (Item × Priority)}
    (unique : ((pushed ++ queue.entries).map fun entry => key entry.1).Nodup) :
    (queue.pushAll pushed).entries.Perm (pushed ++ queue.entries) := by
  induction pushed generalizing queue with
  | nil => exact .refl _
  | cons entry rest induction =>
      rw [List.cons_append, List.map_cons, List.nodup_cons] at unique
      obtain ⟨fresh, restUnique⟩ := unique
      have absent : ∀ other ∈ queue.entries, key other.1 ≠ key entry.1 := by
        intro other member same
        apply fresh
        rw [← same]
        exact List.mem_map_of_mem (List.mem_append_right _ member)
      have pushed := push_perm absent entry.2
      have moved : (rest ++ (queue.push entry.1 entry.2).entries).Perm
          (entry :: (rest ++ queue.entries)) :=
        (pushed.append_left rest).trans List.perm_middle
      refine (induction ?_).trans moved
      rw [(moved.map _).nodup_iff, List.map_cons]
      exact List.nodup_cons.mpr ⟨fresh, restUnique⟩

section Ordered

variable [LinearOrder Priority]

theorem pop_eq_some {layout : Layout (Item × Priority)} {queue rest : PriorityQueue key Priority}
    {top : Item × Priority} :
    queue.pop layout = some (top, rest) ↔
      queue.peek layout = some top ∧ rest = queue.erase (key top.1) := by
  simp only [pop, Option.map_eq_some_iff, Prod.mk.injEq]
  constructor
  · rintro ⟨other, peeked, rfl, rfl⟩
    exact ⟨peeked, rfl⟩
  · rintro ⟨peeked, rfl⟩
    exact ⟨top, peeked, rfl, rfl⟩

/-! ## Popping several entries -/

/-- `Pops layout queue popped rest`: popping one entry after another from
`queue` yields `popped`, in this order, and leaves `rest`. -/
inductive Pops (layout : Layout (Item × Priority)) :
    PriorityQueue key Priority → List (Item × Priority) →
      PriorityQueue key Priority → Prop where
  | nil (queue : PriorityQueue key Priority) : Pops layout queue [] queue
  | cons {queue middle rest : PriorityQueue key Priority} {top : Item × Priority}
      {popped : List (Item × Priority)} :
      queue.pop layout = some (top, middle) →
      Pops layout middle popped rest →
      Pops layout queue (top :: popped) rest

theorem Pops.perm {layout : Layout (Item × Priority)}
    {queue rest : PriorityQueue key Priority} {popped : List (Item × Priority)}
    (pops : Pops layout queue popped rest) :
    queue.entries.Perm (popped ++ rest.entries) := by
  induction pops with
  | nil => exact .refl _
  | cons step _ induction =>
      obtain ⟨peeked, rfl⟩ := pop_eq_some.mp step
      exact (perm_erase (peek_mem peeked)).trans (induction.cons _)

/-- Whatever is popped has at least the priority of whatever stays. -/
theorem Pops.separates {layout : Layout (Item × Priority)}
    {queue rest : PriorityQueue key Priority} {popped : List (Item × Priority)}
    (pops : Pops layout queue popped rest) :
    ∀ high ∈ popped, ∀ low ∈ rest.entries, low.2 ≤ high.2 := by
  induction pops with
  | nil => simp
  | cons step later induction =>
      intro high highMember low lowMember
      rcases List.mem_cons.mp highMember with rfl | inPopped
      · obtain ⟨peeked, rfl⟩ := pop_eq_some.mp step
        have inMiddle := later.perm.mem_iff.mpr (List.mem_append_right _ lowMember)
        exact le_of_peek peeked (mem_erase.mp inMiddle).1
      · exact induction high inPopped low lowMember

/-- Entries are popped in the order of their priority. -/
theorem Pops.pairwise {layout : Layout (Item × Priority)}
    {queue rest : PriorityQueue key Priority} {popped : List (Item × Priority)}
    (pops : Pops layout queue popped rest) :
    popped.Pairwise fun first second => second.2 ≤ first.2 := by
  induction pops with
  | nil => exact .nil
  | cons step later induction =>
      refine List.pairwise_cons.mpr ⟨?_, induction⟩
      intro entry member
      obtain ⟨peeked, rfl⟩ := pop_eq_some.mp step
      have inMiddle := later.perm.mem_iff.mpr (List.mem_append_left _ member)
      exact le_of_peek peeked (mem_erase.mp inMiddle).1

theorem pop_eq_none {layout : Layout (Item × Priority)} {queue : PriorityQueue key Priority} :
    queue.pop layout = none ↔ queue.entries = [] := by
  rw [pop, Option.map_eq_none_iff, peek_eq_none]

end Ordered

end Keyed

end PriorityQueue

end AlignedLayer
