import AlignedLayer.Library.Machine
import Mathlib.Data.List.Infix

/-!
# Properties that depend on a guard

A property that a step keeps exactly if a guard is met at it holds in every
state of a run exactly if every step of the run meets the guard.
-/

namespace AlignedLayer

namespace Machine

variable {State Label : Type} {machine : Machine State Label}

/-- The property holds in every state of the run. -/
def Always (machine : Machine State Label) (property : State → Prop) (start : State)
    (labels : List Label) : Prop :=
  ∀ before state, before <+: labels → machine.run start before = some state → property state

theorem Always.head {property : State → Prop} {start : State} {labels : List Label}
    (always : machine.Always property start labels) : property start :=
  always [] start (List.nil_prefix) rfl

theorem Always.tail {property : State → Prop} {start next : State} {label : Label}
    {labels : List Label} (always : machine.Always property start (label :: labels))
    (stepped : machine.step start label = some next) : machine.Always property next labels := by
  intro before state isPrefix ran
  obtain ⟨after, rfl⟩ := isPrefix
  apply always (label :: before) state ⟨after, rfl⟩
  rw [run, stepped]
  exact ran

theorem Always.cons {property : State → Prop} {start next : State} {label : Label}
    {labels : List Label} (here : property start)
    (stepped : machine.step start label = some next)
    (later : machine.Always property next labels) :
    machine.Always property start (label :: labels) := by
  intro before state isPrefix ran
  cases before with
  | nil =>
      simp only [run, Option.some.injEq] at ran
      exact ran ▸ here
  | cons first before =>
      obtain ⟨after, same⟩ := isPrefix
      obtain ⟨rfl, rfl⟩ := List.cons.inj same
      rw [run, stepped] at ran
      exact later before state ⟨after, rfl⟩ ran

/-- The background holds in every run; with it, a step keeps the property
exactly if it meets the guard. -/
theorem always_iff_meets {guard : State → Label → Prop} {background property : State → Prop}
    (preserved : ∀ {state next : State} {label : Label}, background state →
      machine.step state label = some next → background next)
    (kept : ∀ {state next : State} {label : Label}, background state → property state →
      machine.step state label = some next → (property next ↔ guard state label))
    {start finish : State} {labels : List Label} (initial : background start)
    (holds : property start) (ran : machine.run start labels = some finish) :
    machine.Always property start labels ↔ machine.Meets guard start labels := by
  induction labels generalizing start with
  | nil =>
      apply iff_of_true _ trivial
      intro before state isPrefix ranBefore
      rw [List.prefix_nil.mp isPrefix, run, Option.some.injEq] at ranBefore
      exact ranBefore ▸ holds
  | cons label labels induction =>
      obtain ⟨next, stepped, rest⟩ := Option.bind_eq_some_iff.mp ran
      have after := kept initial holds stepped
      have background := preserved initial stepped
      constructor
      · intro always
        have later := always.tail stepped
        have reached := later.head
        refine ⟨after.mp reached, ?_⟩
        intro other otherStep
        rw [stepped, Option.some.injEq] at otherStep
        exact otherStep ▸ (induction background reached rest).mp later
      · intro meets
        have reached := after.mpr meets.1
        apply Always.cons holds stepped
        exact (induction background reached rest).mpr (meets.2 next stepped)

end Machine

end AlignedLayer
