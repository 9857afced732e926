import Mathlib.Data.List.Basic

/-!
# Deterministic machines and guarded runs

Every choice of the environment is part of the label, so a step is a partial
function.  A guard is a condition on the state before a step and on the
step's label; `Machine.Meets` says that every step of a run satisfies it.
-/

namespace AlignedLayer

structure Machine (State Label : Type) where
  step : State → Label → Option State

namespace Machine

variable {State Label : Type} (machine : Machine State Label)

def run : State → List Label → Option State
  | state, [] => some state
  | state, label :: labels => (machine.step state label).bind (run · labels)

/-- Every step taken along the labels meets the guard. -/
def Meets (guard : State → Label → Prop) : State → List Label → Prop
  | _, [] => True
  | state, label :: labels =>
      guard state label ∧
        ∀ next, machine.step state label = some next → Meets guard next labels

/-- What the steps along the labels put out. -/
def outputs {Output : Type} (output : State → Label → State → List Output) :
    State → List Label → List Output
  | _, [] => []
  | state, label :: labels =>
      match machine.step state label with
      | none => []
      | some next => output state label next ++ outputs output next labels

variable {machine}

theorem run_append {start : State} {before after : List Label} :
    machine.run start (before ++ after) =
      (machine.run start before).bind (machine.run · after) := by
  induction before generalizing start with
  | nil => rfl
  | cons label labels induction =>
      simp only [List.cons_append, run, Option.bind_assoc]
      cases machine.step start label with
      | none => rfl
      | some next => exact induction

theorem Meets.of_append {guard : State → Label → Prop} {start middle : State}
    {before after : List Label} (meets : machine.Meets guard start (before ++ after))
    (ran : machine.run start before = some middle) :
    machine.Meets guard start before ∧ machine.Meets guard middle after := by
  induction before generalizing start with
  | nil =>
      simp only [run, Option.some.injEq] at ran
      subst middle
      exact ⟨trivial, meets⟩
  | cons label labels induction =>
      simp only [List.cons_append, Meets] at meets
      obtain ⟨next, stepped, rest⟩ := Option.bind_eq_some_iff.mp ran
      obtain ⟨restMeets, afterMeets⟩ := induction (meets.2 next stepped) rest
      refine ⟨⟨meets.1, ?_⟩, afterMeets⟩
      intro other otherStep
      rw [stepped, Option.some.injEq] at otherStep
      exact otherStep ▸ restMeets

/-- A weaker guard is met by every run that meets the stronger one. -/
theorem Meets.weaken {guard weaker : State → Label → Prop}
    (implies : ∀ state label, guard state label → weaker state label)
    {start : State} {labels : List Label} (meets : machine.Meets guard start labels) :
    machine.Meets weaker start labels := by
  induction labels generalizing start with
  | nil => trivial
  | cons label labels induction =>
      exact ⟨implies _ _ meets.1, fun next stepped => induction (meets.2 next stepped)⟩

theorem Meets.and {left right : State → Label → Prop} {start : State} {labels : List Label}
    (meetsLeft : machine.Meets left start labels)
    (meetsRight : machine.Meets right start labels) :
    machine.Meets (fun state label => left state label ∧ right state label) start labels := by
  induction labels generalizing start with
  | nil => trivial
  | cons label labels induction =>
      refine ⟨⟨meetsLeft.1, meetsRight.1⟩, ?_⟩
      intro next stepped
      exact induction (meetsLeft.2 next stepped) (meetsRight.2 next stepped)

/-- Guards that agree where an invariant holds are met by the same runs. -/
theorem Meets.congr {left right : State → Label → Prop} {invariant : State → Prop}
    (preserved : ∀ {state next : State} {label : Label}, invariant state →
      machine.step state label = some next → invariant next)
    (agree : ∀ {state : State} {label : Label}, invariant state →
      (left state label ↔ right state label))
    {start : State} {labels : List Label} (initial : invariant start) :
    machine.Meets left start labels ↔ machine.Meets right start labels := by
  induction labels generalizing start with
  | nil => exact Iff.rfl
  | cons label labels induction =>
      rw [Meets, Meets, agree initial]
      apply and_congr_right
      intro _
      constructor
      · intro meets next stepped
        exact (induction (preserved initial stepped)).mp (meets next stepped)
      · intro meets next stepped
        exact (induction (preserved initial stepped)).mpr (meets next stepped)

/-- A run whose guard can be decided at every step can be checked against it. -/
instance Meets.decidable (guard : State → Label → Prop)
    [∀ state label, Decidable (guard state label)] :
    ∀ (start : State) (labels : List Label), Decidable (machine.Meets guard start labels)
  | _, [] => .isTrue trivial
  | start, label :: labels =>
      match stepped : machine.step start label with
      | none => decidable_of_iff (guard start label) (by simp [Meets, stepped])
      | some next =>
          have : Decidable (machine.Meets guard next labels) := decidable guard next labels
          decidable_of_iff (guard start label ∧ machine.Meets guard next labels)
            (by simp [Meets, stepped])

/-- What every guarded step preserves holds wherever a guarded run ends. -/
theorem run_preserves {guard : State → Label → Prop} {invariant : State → Prop}
    (preserved : ∀ {state next : State} {label : Label}, invariant state →
      guard state label → machine.step state label = some next → invariant next)
    {start finish : State} {labels : List Label} (initial : invariant start)
    (meets : machine.Meets guard start labels)
    (ran : machine.run start labels = some finish) : invariant finish := by
  induction labels generalizing start with
  | nil =>
      simp only [run, Option.some.injEq] at ran
      exact ran ▸ initial
  | cons label labels induction =>
      obtain ⟨next, stepped, rest⟩ := Option.bind_eq_some_iff.mp ran
      exact induction (preserved initial meets.1 stepped) (meets.2 next stepped) rest

theorem Meets.always (start : State) (labels : List Label) :
    machine.Meets (fun _ _ => True) start labels := by
  induction labels generalizing start with
  | nil => trivial
  | cons label labels induction => exact ⟨trivial, fun next _ => induction next⟩

/-- The same for steps without a guard. -/
theorem run_invariant {invariant : State → Prop}
    (preserved : ∀ {state next : State} {label : Label}, invariant state →
      machine.step state label = some next → invariant next)
    {start finish : State} {labels : List Label} (initial : invariant start)
    (ran : machine.run start labels = some finish) : invariant finish :=
  run_preserves (fun holds _ stepped => preserved holds stepped) initial
    (Meets.always start labels) ran

/-- A relation between a state and what was put out so far that every guarded
step preserves holds wherever a guarded run ends. -/
theorem run_outputs {Output : Type} {output : State → Label → State → List Output}
    {guard : State → Label → Prop} {related : State → List Output → Prop}
    (preserved : ∀ {state next : State} {label : Label} {seen : List Output},
      related state seen → guard state label → machine.step state label = some next →
      related next (seen ++ output state label next))
    {start finish : State} {labels : List Label} {seen : List Output}
    (initial : related start seen) (meets : machine.Meets guard start labels)
    (ran : machine.run start labels = some finish) :
    related finish (seen ++ machine.outputs output start labels) := by
  induction labels generalizing start seen with
  | nil =>
      simp only [run, Option.some.injEq] at ran
      rw [outputs, List.append_nil]
      exact ran ▸ initial
  | cons label labels induction =>
      obtain ⟨next, stepped, rest⟩ := Option.bind_eq_some_iff.mp ran
      rw [outputs, stepped]
      dsimp only
      rw [← List.append_assoc]
      exact induction (preserved initial meets.1 stepped) (meets.2 next stepped) rest

end Machine

end AlignedLayer
