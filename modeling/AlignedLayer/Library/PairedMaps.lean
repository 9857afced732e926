import Mathlib.Logic.Function.Basic

/-!
# Pairs of maps that invert each other

A table with lookups in both directions, kept as two partial functions, and
further tables over the same keys.  Each write goes to all of them, and the
lemmas say under which condition the tables still agree.
-/

namespace AlignedLayer

variable {Key Index Value Other : Type}

def MutuallyInverse (forward : Key → Option Index) (backward : Index → Option Key) : Prop :=
  ∀ key index, forward key = some index ↔ backward index = some key

def SameDomain (first : Key → Option Value) (second : Key → Option Other) : Prop :=
  ∀ key, (first key).isSome ↔ (second key).isSome

theorem SameDomain.update [DecidableEq Key] {first : Key → Option Value}
    {second : Key → Option Other} (same : SameDomain first second) (key : Key)
    {value : Option Value} {other : Option Other} (both : value.isSome ↔ other.isSome) :
    SameDomain (Function.update first key value) (Function.update second key other) := by
  intro found
  by_cases isKey : found = key
  · subst isKey
    simpa using both
  · rw [Function.update_of_ne isKey, Function.update_of_ne isKey]
    exact same found

namespace MutuallyInverse

variable [DecidableEq Key] [DecidableEq Index] {forward : Key → Option Index}
  {backward : Index → Option Key} {key : Key} {index : Index}

theorem insert (inverse : MutuallyInverse forward backward) (newKey : forward key = none)
    (newIndex : backward index = none) :
    MutuallyInverse (Function.update forward key (some index))
      (Function.update backward index (some key)) := by
  intro other found
  by_cases isKey : other = key
  · subst isKey
    by_cases isIndex : found = index
    · subst isIndex
      simp
    · rw [Function.update_self, Function.update_of_ne isIndex, ← inverse, newKey]
      simp [Ne.symm isIndex]
  · rw [Function.update_of_ne isKey]
    by_cases isIndex : found = index
    · subst isIndex
      rw [Function.update_self, inverse, newIndex]
      simp [Ne.symm isKey]
    · rw [Function.update_of_ne isIndex]
      exact inverse other found

theorem remove (inverse : MutuallyInverse forward backward) (stored : backward index = some key) :
    MutuallyInverse (Function.update forward key none) (Function.update backward index none) := by
  have found := (inverse key index).mpr stored
  intro other position
  by_cases isKey : other = key
  · subst isKey
    rw [Function.update_self]
    constructor
    · intro absent
      cases absent
    · intro kept
      by_cases isIndex : position = index
      · subst isIndex
        simp at kept
      · rw [Function.update_of_ne isIndex, ← inverse, found] at kept
        exact absurd (Option.some.inj kept).symm isIndex
  · rw [Function.update_of_ne isKey]
    by_cases isIndex : position = index
    · subst isIndex
      rw [Function.update_self, inverse, stored]
      simp [Ne.symm isKey]
    · rw [Function.update_of_ne isIndex]
      exact inverse other position

end MutuallyInverse

end AlignedLayer
