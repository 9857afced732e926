import Mathlib.Data.List.Infix
import Mathlib.Order.Bounds.Basic

/-!
# The longest suffix with a property

Dropping elements from the front until what is left passes a test finds the
longest suffix that passes.
-/

namespace AlignedLayer

variable {Element : Type}

def longestSuffix (test : List Element → Bool) : List Element → List Element
  | [] => []
  | first :: rest => if test (first :: rest) then first :: rest else longestSuffix test rest

/-- The last elements of a list, as many as the number says. -/
def lastEntries (count : Nat) (list : List Element) : List Element :=
  list.drop (list.length - count)

variable {test : List Element → Bool} {list : List Element}

theorem longestSuffix_suffix : longestSuffix test list <:+ list := by
  induction list with
  | nil => exact List.suffix_refl _
  | cons first rest induction =>
      rw [longestSuffix]
      split
      · exact List.suffix_refl _
      · exact induction.trans (List.suffix_cons first rest)

theorem longestSuffix_passes (nonempty : longestSuffix test list ≠ []) :
    test (longestSuffix test list) = true := by
  induction list with
  | nil => exact absurd rfl nonempty
  | cons first rest induction =>
      rw [longestSuffix] at nonempty ⊢
      split
      case isTrue passes => exact passes
      case isFalse fails =>
        rw [if_neg fails] at nonempty
        exact induction nonempty

/-- No longer suffix passes. -/
theorem length_le_longestSuffix {suffix : List Element} (isSuffix : suffix <:+ list)
    (nonempty : suffix ≠ []) (passes : test suffix = true) :
    suffix.length ≤ (longestSuffix test list).length := by
  induction list with
  | nil => exact absurd (List.suffix_nil.mp isSuffix) nonempty
  | cons first rest induction =>
      rw [longestSuffix]
      split
      case isTrue => exact isSuffix.length_le
      case isFalse fails =>
        rcases List.suffix_cons_iff.mp isSuffix with whole | later
        · rw [whole] at passes
          exact absurd passes fails
        · exact induction later

theorem lastEntries_suffix (count : Nat) : lastEntries count list <:+ list :=
  List.drop_suffix _ _

theorem length_lastEntries {count : Nat} (bound : count ≤ list.length) :
    (lastEntries count list).length = count := by
  rw [lastEntries, List.length_drop]
  omega

theorem eq_lastEntries {suffix : List Element} (isSuffix : suffix <:+ list) :
    suffix = lastEntries suffix.length list := by
  obtain ⟨front, rfl⟩ := isSuffix
  rw [lastEntries, List.length_append, Nat.add_sub_cancel, List.drop_left]

theorem lastEntries_cons {count : Nat} {first : Element} (bound : count ≤ list.length) :
    lastEntries count (first :: list) = lastEntries count list := by
  rw [lastEntries, lastEntries, List.length_cons, Nat.succ_sub bound, List.drop_succ_cons]

/-- Where a property passes on to the later elements, the last elements have
it, as many as there are elements with it. -/
theorem of_mem_lastEntries {property : Element → Prop} [DecidablePred property] {count : Nat}
    (passesOn : list.Pairwise fun earlier later => property earlier → property later)
    (bound : count ≤ list.countP property) :
    ∀ element ∈ lastEntries count list, property element := by
  induction list with
  | nil => simp [lastEntries]
  | cons first rest induction =>
      obtain ⟨toRest, inRest⟩ := List.pairwise_cons.mp passesOn
      intro element member
      by_cases holds : property first
      · rcases List.mem_cons.mp ((lastEntries_suffix count).subset member) with rfl | later
        · exact holds
        · exact toRest element later holds
      · have fewer : count ≤ rest.countP property := by
          simpa [holds] using bound
        rw [lastEntries_cons (fewer.trans List.countP_le_length)] at member
        exact induction inRest fewer element member

end AlignedLayer
