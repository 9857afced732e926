import Mathlib.Data.List.Induction

/-!
# Where a value was set last

A value of the state that every step resets, sets or leaves alone was, unless
it is reset, set by some step of the past that nothing has touched since.
-/

namespace AlignedLayer

variable {State Label Value : Type} (step : State → Label → State)

/-- No step along the labels touches. -/
def Untouched (touches : State → Label → Prop) : State → List Label → Prop
  | _, [] => True
  | state, label :: labels => ¬ touches state label ∧ Untouched touches (step state label) labels

variable {step} {touches : State → Label → Prop}

theorem untouched_append {before after : List Label} {start : State} :
    Untouched step touches start (before ++ after) ↔
      Untouched step touches start before ∧
        Untouched step touches (before.foldl step start) after := by
  induction before generalizing start with
  | nil => simp [Untouched]
  | cons label labels induction => simp [Untouched, induction, and_assoc]

/-- `sets` says what a step sets the value to. -/
theorem exists_last_setting {value : State → Value} {unset : Value}
    {sets : State → Label → Value → Prop}
    (changes : ∀ state label, value (step state label) = unset ∨
      sets state label (value (step state label)) ∨
        (value (step state label) = value state ∧ ¬ touches state label))
    {start : State} (initial : value start = unset) {labels : List Label}
    (isSet : value (labels.foldl step start) ≠ unset) :
    ∃ before label between, labels = before ++ label :: between ∧
      sets (before.foldl step start) label (value (labels.foldl step start)) ∧
      Untouched step touches (step (before.foldl step start) label) between := by
  induction labels using List.reverseRecOn with
  | nil => exact absurd initial isSet
  | append_singleton labels label induction =>
      simp only [List.foldl_append, List.foldl_cons, List.foldl_nil] at isSet ⊢
      rcases changes (labels.foldl step start) label with reset | set | ⟨same, untouched⟩
      · exact absurd reset isSet
      · exact ⟨labels, label, [], rfl, set, trivial⟩
      · rw [same] at isSet ⊢
        obtain ⟨before, setting, between, split, set, rest⟩ := induction isSet
        refine ⟨before, setting, between ++ [label], ?_, set, ?_⟩
        · rw [split, List.append_assoc, List.cons_append]
        · rw [untouched_append]
          refine ⟨rest, ?_, trivial⟩
          have reached : between.foldl step (step (before.foldl step start) setting) =
              labels.foldl step start := by
            rw [split, List.foldl_append, List.foldl_cons]
          rwa [reached]

end AlignedLayer
