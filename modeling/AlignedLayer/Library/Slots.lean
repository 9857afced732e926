import Mathlib.Data.List.Perm.Basic
import Mathlib.Algebra.BigOperators.Group.List.Basic
import Mathlib.Algebra.Order.Ring.Nat

/-!
# One slot of a list changes

A list of parties of which one moves.  Whatever is collected or added up over
the parties splits into the share of the one that moves and the rest.
-/

namespace AlignedLayer

variable {Slot Item : Type} {slots : List Slot} {position : Nat} {old : Slot}

theorem set_perm (found : slots[position]? = some old) (new : Slot) :
    (slots.set position new).Perm (new :: slots.eraseIdx position) := by
  obtain ⟨bound, -⟩ := List.getElem?_eq_some_iff.mp found
  exact List.set_perm_cons_eraseIdx bound new

theorem perm_of_slot (found : slots[position]? = some old) :
    slots.Perm (old :: slots.eraseIdx position) := by
  obtain ⟨bound, isOld⟩ := List.getElem?_eq_some_iff.mp found
  rw [← isOld]
  exact (List.getElem_cons_eraseIdx_perm bound).symm

theorem sum_of_slot (found : slots[position]? = some old) (weight : Slot → Nat) :
    (slots.map weight).sum = weight old + ((slots.eraseIdx position).map weight).sum := by
  rw [((perm_of_slot found).map weight).sum_eq, List.map_cons, List.sum_cons]

theorem sum_set (found : slots[position]? = some old) (new : Slot) (weight : Slot → Nat) :
    ((slots.set position new).map weight).sum =
      weight new + ((slots.eraseIdx position).map weight).sum := by
  rw [((set_perm found new).map weight).sum_eq, List.map_cons, List.sum_cons]

theorem flatMap_of_slot (found : slots[position]? = some old) (items : Slot → List Item) :
    (slots.flatMap items).Perm (items old ++ (slots.eraseIdx position).flatMap items) :=
  (perm_of_slot found).flatMap_right items

theorem flatMap_set (found : slots[position]? = some old) (new : Slot)
    (items : Slot → List Item) :
    ((slots.set position new).flatMap items).Perm
      (items new ++ (slots.eraseIdx position).flatMap items) :=
  (set_perm found new).flatMap_right items

end AlignedLayer
