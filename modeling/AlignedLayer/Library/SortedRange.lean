import Mathlib.Algebra.Order.BigOperators.Group.List
import Mathlib.Algebra.Order.Ring.Nat
import Mathlib.Data.List.Basic

/-!
# Ranges of a sorted list

A list sorted by a key falls into the parts between given bounds, it begins
with the items that all others are above, and a budget is spent on its longest
affordable prefix.  A cursor over the keys that always moves on passes all.
-/

namespace AlignedLayer

variable {Item : Type} {key : Item → Nat}

def SortedBy (key : Item → Nat) (items : List Item) : Prop :=
  items.Pairwise fun earlier later => key earlier ≤ key later

/-- The items from the lower bound up to below the upper one. -/
def within (key : Item → Nat) (lower upper : Nat) (items : List Item) : List Item :=
  items.filter fun item => lower ≤ key item ∧ key item < upper

theorem within_eq_nil {lower upper : Nat} {items : List Item}
    (outside : ∀ item ∈ items, key item < lower ∨ upper ≤ key item) :
    within key lower upper items = [] := by
  rw [within, List.filter_eq_nil_iff]
  intro item member
  have := outside item member
  simp only [decide_eq_true_eq]
  omega

theorem within_append_items {lower upper : Nat} {before after : List Item} :
    within key lower upper (before ++ after) =
      within key lower upper before ++ within key lower upper after :=
  List.filter_append before after

theorem within_cons_inside {lower upper : Nat} {item : Item} {items : List Item}
    (inside : lower ≤ key item ∧ key item < upper) :
    within key lower upper (item :: items) = item :: within key lower upper items :=
  List.filter_cons_of_pos (decide_eq_true inside)

theorem within_cons_outside {lower upper : Nat} {item : Item} {items : List Item}
    (outside : ¬ (lower ≤ key item ∧ key item < upper)) :
    within key lower upper (item :: items) = within key lower upper items :=
  List.filter_cons_of_neg (by simpa using outside)

/-- Adjacent ranges of a sorted list make up one range. -/
theorem within_append {lower middle upper : Nat} {items : List Item}
    (sorted : SortedBy key items) (first : lower ≤ middle) (second : middle ≤ upper) :
    within key lower middle items ++ within key middle upper items =
      within key lower upper items := by
  induction items with
  | nil => rfl
  | cons item items induction =>
      obtain ⟨above, rest⟩ := List.pairwise_cons.mp sorted
      have joined := induction rest
      by_cases reached : middle ≤ key item
      · -- From here on no item is below the middle.
        have empty : within key lower middle items = [] := by
          apply within_eq_nil
          intro other member
          exact .inr (Nat.le_trans reached (above other member))
        rw [empty, List.nil_append] at joined
        rw [within_cons_outside (by omega), empty, List.nil_append]
        by_cases below : key item < upper
        · rw [within_cons_inside ⟨reached, below⟩, within_cons_inside (by omega), joined]
        · rw [within_cons_outside (by omega), within_cons_outside (by omega), joined]
      · rw [@within_cons_outside _ _ middle _ _ _ (by omega)]
        by_cases above : lower ≤ key item
        · rw [within_cons_inside (by omega), within_cons_inside (by omega), List.cons_append,
            joined]
        · rw [within_cons_outside (by omega), within_cons_outside (by omega), joined]

/-- When the items of a strictly sorted list are divided into sorted ones and
ones above them, the list begins with the former. -/
theorem eq_append_of_divided {items lower : List Item} {upper : Item → Prop}
    (sorted : items.Pairwise fun earlier later => key earlier < key later)
    (lowerSorted : lower.Pairwise fun earlier later => key earlier < key later)
    (inside : ∀ item ∈ lower, item ∈ items)
    (divided : ∀ item ∈ items, item ∈ lower ∨ upper item)
    (above : ∀ low ∈ lower, ∀ item, upper item → key low < key item) :
    ∃ rest, items = lower ++ rest := by
  induction items generalizing lower with
  | nil =>
      have nothing : lower = [] := List.eq_nil_iff_forall_not_mem.mpr
        fun item member => List.not_mem_nil (inside item member)
      exact ⟨[], by rw [nothing]; rfl⟩
  | cons first items induction =>
      cases lower with
      | nil => exact ⟨first :: items, rfl⟩
      | cons low lower =>
          obtain ⟨lowest, itemsSorted⟩ := List.pairwise_cons.mp sorted
          obtain ⟨lowFirst, restSorted⟩ := List.pairwise_cons.mp lowerSorted
          have notAfter : low ∈ first :: items → ¬ key first < key low → low = first := by
            intro member notLess
            rcases List.mem_cons.mp member with same | later
            · exact same
            · exact absurd (lowest low later) notLess
          have same : low = first := by
            apply notAfter (inside low List.mem_cons_self)
            rcases divided first List.mem_cons_self with member | isUpper
            · rcases List.mem_cons.mp member with same | later
              · rw [same]
                exact Nat.lt_irrefl _
              · exact Nat.lt_asymm (lowFirst first later)
            · exact Nat.lt_asymm (above low List.mem_cons_self first isUpper)
          subst low
          have ⟨rest, split⟩ : ∃ rest, items = lower ++ rest := by
            apply induction itemsSorted restSorted
            · intro item member
              rcases List.mem_cons.mp (inside item (List.mem_cons_of_mem _ member)) with rfl | later
              · exact absurd (lowFirst item member) (Nat.lt_irrefl _)
              · exact later
            · intro item member
              rcases divided item (List.mem_cons_of_mem _ member) with isLower | isUpper
              · rcases List.mem_cons.mp isLower with rfl | later
                · exact absurd (lowest item member) (Nat.lt_irrefl _)
                · exact .inl later
              · exact .inr isUpper
            · exact fun low member => above low (List.mem_cons_of_mem _ member)
          exact ⟨rest, by rw [split]; rfl⟩

/-- The longest prefix whose costs fit the budget, and the rest. -/
def affordable (cost : Item → Nat) : Nat → List Item → List Item × List Item
  | _, [] => ([], [])
  | budget, item :: items =>
      if cost item ≤ budget then
        let (prefixed, rest) := affordable cost (budget - cost item) items
        (item :: prefixed, rest)
      else
        ([], item :: items)

theorem affordable_append (cost : Item → Nat) (budget : Nat) (items : List Item) :
    (affordable cost budget items).1 ++ (affordable cost budget items).2 = items := by
  induction items generalizing budget with
  | nil => rfl
  | cons item items induction =>
      rw [affordable]
      split
      · simp only [List.cons_append, induction]
      · rfl

theorem sum_affordable_le (cost : Item → Nat) (budget : Nat) (items : List Item) :
    ((affordable cost budget items).1.map cost).sum ≤ budget := by
  induction items generalizing budget with
  | nil => exact Nat.zero_le _
  | cons item items ih =>
      rw [affordable]
      split
      · have rest := ih (budget - cost item)
        rw [List.map_cons, List.sum_cons]
        omega
      · exact Nat.zero_le _

/-- The item behind the prefix is one too many. -/
theorem lt_sum_of_affordable {cost : Item → Nat} {budget : Nat} {items rest : List Item}
    {item : Item} (stops : (affordable cost budget items).2 = item :: rest) :
    budget < ((affordable cost budget items).1.map cost).sum + cost item := by
  induction items generalizing budget with
  | nil => cases stops
  | cons first items ih =>
      rw [affordable] at stops ⊢
      by_cases fits : cost first ≤ budget
      · rw [if_pos fits] at stops ⊢
        have later := ih stops
        rw [List.map_cons, List.sum_cons]
        omega
      · rw [if_neg fits] at stops ⊢
        cases stops
        rw [List.map_nil, List.sum_nil]
        omega

/-- A cursor that always moves on passes every place. -/
theorem exists_lt_of_moves {cursor : Nat → Nat}
    (moves : ∀ time, ∃ later, cursor time < cursor later) (place : Nat) :
    ∃ time, place < cursor time := by
  induction place with
  | zero =>
      obtain ⟨later, passed⟩ := moves 0
      exact ⟨later, Nat.lt_of_le_of_lt (Nat.zero_le _) passed⟩
  | succ place ih =>
      obtain ⟨time, passed⟩ := ih
      obtain ⟨later, further⟩ := moves time
      exact ⟨later, by omega⟩

end AlignedLayer
