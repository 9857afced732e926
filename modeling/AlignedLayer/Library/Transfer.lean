import Mathlib.Algebra.BigOperators.Group.List.Lemmas
import Mathlib.Data.List.Nodup
import Mathlib.Data.List.Perm.Basic

/-!
# Transfers of held items

A holder takes items in, settles some, loses some, and keeps the rest.  A
`Transfer` compares what is held before and after as multisets, so that the
order in which items are stored plays no role.
-/

namespace AlignedLayer

variable {Item Key : Type}

/-- From `before`, the items `lost` leave; from the rest and `added`, the items
`settled` leave and `after` stays. -/
def Transfer (before added settled lost after : List Item) : Prop :=
  ∃ kept, before.Perm (lost ++ kept) ∧ (settled ++ after).Perm (added ++ kept)

namespace Transfer

variable {before added settled lost after : List Item}

theorem of_perm (permutation : before.Perm after) : Transfer before [] [] [] after :=
  ⟨before, .refl _, permutation.symm⟩

theorem refl (held : List Item) : Transfer held [] [] [] held :=
  of_perm (.refl _)

theorem of_lose (permutation : before.Perm (lost ++ after)) :
    Transfer before [] [] lost after :=
  ⟨after, permutation, .refl _⟩

theorem of_settle (permutation : before.Perm (settled ++ after)) :
    Transfer before [] settled [] after :=
  ⟨before, .refl _, permutation.symm⟩

/-- Nothing appears or disappears without being accounted for. -/
theorem conserves (transfer : Transfer before added settled lost after) :
    (lost ++ (settled ++ after)).Perm (added ++ before) := by
  obtain ⟨kept, split, joined⟩ := transfer
  calc
    (lost ++ (settled ++ after)).Perm (lost ++ (added ++ kept)) := joined.append_left lost
    (lost ++ (added ++ kept)).Perm (added ++ (lost ++ kept)) := by
      rw [← List.append_assoc, ← List.append_assoc]
      exact List.perm_append_comm.append_right kept
    (added ++ (lost ++ kept)).Perm (added ++ before) := split.symm.append_left added

/-- If the items in all places are those that were ever taken in, then they
still are after the transfer. -/
theorem accounts {everAdded everSettled everLost : List Item}
    (transfer : Transfer before added settled lost after)
    (accounted : everAdded.Perm (before ++ (everSettled ++ everLost))) :
    (everAdded ++ added).Perm
      (after ++ ((everSettled ++ settled) ++ (everLost ++ lost))) := by
  classical
  have conserved := transfer.conserves
  rw [List.perm_iff_count] at accounted conserved ⊢
  intro item
  have before_count := accounted item
  have after_count := conserved item
  simp only [List.count_append] at before_count after_count ⊢
  omega

section Keyed

variable (key : Item → Key)

/-- Keys stay unique when each added item is new, or takes the place of a lost
one. -/
theorem keys_nodup {done : List Item} (transfer : Transfer before added settled lost after)
    (unique : ((before ++ done).map key).Nodup) (single : (added.map key).Nodup)
    (fresh : ∀ item ∈ added,
      key item ∈ lost.map key ∨ key item ∉ (before ++ done).map key) :
    ((after ++ (done ++ settled)).map key).Nodup := by
  obtain ⟨kept, split, joined⟩ := transfer
  have rearranged : (after ++ (done ++ settled)).Perm (added ++ (kept ++ done)) := by
    calc
      (after ++ (done ++ settled)).Perm ((settled ++ after) ++ done) := by
        rw [← List.append_assoc]
        exact List.perm_append_comm.trans (by rw [List.append_assoc])
      ((settled ++ after) ++ done).Perm ((added ++ kept) ++ done) := joined.append_right done
      ((added ++ kept) ++ done).Perm (added ++ (kept ++ done)) := by rw [List.append_assoc]
  have spread : (before ++ done).Perm (lost ++ (kept ++ done)) := by
    rw [← List.append_assoc]
    exact split.append_right done
  have uniqueSpread : (lost.map key ++ (kept ++ done).map key).Nodup := by
    rw [← List.map_append]
    exact (spread.map key).nodup_iff.mp unique
  rw [(rearranged.map key).nodup_iff, List.map_append, List.nodup_append]
  refine ⟨single, uniqueSpread.of_append_right, ?_⟩
  intro addedKey addedMember keptKey keptMember same
  subst keptKey
  obtain ⟨item, member, rfl⟩ := List.mem_map.mp addedMember
  rcases fresh item member with replaced | new
  · exact (List.nodup_append.mp uniqueSpread).2.2 _ replaced _ keptMember rfl
  · apply new
    rw [(spread.map key).mem_iff, List.map_append]
    exact List.mem_append_right _ keptMember

end Keyed

end Transfer

end AlignedLayer
