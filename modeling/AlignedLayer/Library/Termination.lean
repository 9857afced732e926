import AlignedLayer.Library.Machine

/-!
# Machines that stop

A measure that every step lowers bounds the length of the runs, and every
state has a run that cannot be continued.
-/

namespace AlignedLayer.Machine

variable {State Label : Type} {machine : Machine State Label}

def Lowers (machine : Machine State Label) (measure : State → Nat) : Prop :=
  ∀ {state next : State} {label : Label}, machine.step state label = some next →
    measure next < measure state

theorem Lowers.length_le {measure : State → Nat} (lowers : machine.Lowers measure)
    {start finish : State} {labels : List Label}
    (ran : machine.run start labels = some finish) :
    labels.length + measure finish ≤ measure start := by
  induction labels generalizing start with
  | nil =>
      simp only [run, Option.some.injEq] at ran
      rw [ran]
      exact Nat.le_of_eq (Nat.zero_add _)
  | cons label labels induction =>
      obtain ⟨next, stepped, rest⟩ := Option.bind_eq_some_iff.mp ran
      have later := induction rest
      have lower := lowers stepped
      rw [List.length_cons]
      omega

/-- From every state some run ends where no step is possible. -/
theorem Lowers.exists_maximal {measure : State → Nat} (lowers : machine.Lowers measure)
    (start : State) :
    ∃ labels finish, machine.run start labels = some finish ∧
      ∀ label, machine.step finish label = none := by
  by_cases stuck : ∀ label, machine.step start label = none
  · exact ⟨[], start, rfl, stuck⟩
  · rw [not_forall] at stuck
    obtain ⟨label, enabled⟩ := stuck
    obtain ⟨next, stepped⟩ := Option.ne_none_iff_exists'.mp enabled
    have lower := lowers stepped
    obtain ⟨labels, finish, ran, ended⟩ := lowers.exists_maximal next
    refine ⟨label :: labels, finish, ?_, ended⟩
    rw [run, stepped, Option.bind_some, ran]
termination_by measure start

end AlignedLayer.Machine
