import Mathlib.Logic.Function.Basic

/-!
# Who is inside

Tasks move from phase to phase.  `HeldBy` says that exactly the holder, if
there is one, is in a phase of a certain kind.  The holder of a lock is
recorded together with the move of the task that takes or drops it.
-/

namespace AlignedLayer

variable {Task Phase : Type}

/-- The task is in a phase of this kind. -/
def Inside (phases : Task → Option Phase) (inside : Phase → Bool) (task : Task) : Prop :=
  (phases task).any inside = true

def HeldBy (phases : Task → Option Phase) (inside : Phase → Bool) (holder : Option Task) : Prop :=
  ∀ task, Inside phases inside task ↔ holder = some task

variable {phases : Task → Option Phase} {inside : Phase → Bool} {holder : Option Task}
  {task other : Task} {phase next : Phase}

theorem inside_iff (found : phases task = some phase) :
    Inside phases inside task ↔ inside phase = true := by
  simp [Inside, found]

theorem Inside.imp {larger : Phase → Bool} (isInside : Inside phases inside task)
    (implies : ∀ phase, inside phase = true → larger phase = true) :
    Inside phases larger task := by
  rw [Inside, Option.any_eq_true] at isInside ⊢
  obtain ⟨phase, found, holds⟩ := isInside
  exact ⟨phase, found, implies phase holds⟩

theorem HeldBy.unique (held : HeldBy phases inside holder) (first : Inside phases inside task)
    (second : Inside phases inside other) : task = other :=
  Option.some.inj (((held task).mp first).symm.trans ((held other).mp second))

theorem HeldBy.nobody (held : HeldBy phases inside none) : ¬ Inside phases inside task := by
  intro isInside
  cases (held task).mp isInside

variable [DecidableEq Task]

theorem inside_update_self :
    Inside (Function.update phases task (some next)) inside task ↔ inside next = true := by
  simp [Inside]

theorem inside_update_of_ne (ne : other ≠ task) :
    Inside (Function.update phases task (some next)) inside other ↔
      Inside phases inside other := by
  simp [Inside, Function.update_of_ne ne]

namespace HeldBy

/-- A move of a task that neither enters nor leaves. -/
theorem stay (held : HeldBy phases inside holder)
    (same : Inside phases inside task ↔ inside next = true) :
    HeldBy (Function.update phases task (some next)) inside holder := by
  intro other
  by_cases own : other = task
  · subst own
    rw [inside_update_self, ← same]
    exact held other
  · rw [inside_update_of_ne own]
    exact held other

theorem keep (held : HeldBy phases inside holder) (found : phases task = some phase)
    (same : inside phase = inside next) :
    HeldBy (Function.update phases task (some next)) inside holder :=
  held.stay (by rw [inside_iff found, same])

theorem enter (held : HeldBy phases inside none) (entered : inside next = true) :
    HeldBy (Function.update phases task (some next)) inside (some task) := by
  intro other
  by_cases own : other = task
  · subst own
    rw [inside_update_self]
    exact ⟨fun _ => rfl, fun _ => entered⟩
  · rw [inside_update_of_ne own, Option.some.injEq]
    exact ⟨fun isInside => absurd isInside held.nobody, fun same => absurd same.symm own⟩

theorem leave (held : HeldBy phases inside holder) (found : phases task = some phase)
    (was : inside phase = true) (left : inside next = false) :
    HeldBy (Function.update phases task (some next)) inside none := by
  have was := (inside_iff found).mpr was
  intro other
  by_cases own : other = task
  · subst own
    rw [inside_update_self, left]
    simp
  · rw [inside_update_of_ne own]
    constructor
    · intro isInside
      exact absurd (held.unique isInside was) own
    · intro nobody
      cases nobody

end HeldBy

end AlignedLayer
