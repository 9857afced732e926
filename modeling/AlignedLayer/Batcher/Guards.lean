import AlignedLayer.Batcher.System

/-!
# Conditions on a step

What a condition on a step says about the handler that takes it, or about the
batch in flight.  All of them can be decided, so that a concrete run can be
checked against its conditions.
-/

namespace AlignedLayer

/-- The batch in flight, if there is one, has the property. -/
def Shared.OfBatch (property : InFlight → Prop) (shared : Shared) : Prop :=
  match shared.batch with
  | none => True
  | some (batch, _) => property batch

namespace Phase

/-- The nonce a handler is about to insert a user state with. -/
def inserting : Phase → Option Nat
  | .insertUser ethereumUserNonce => some ethereumUserNonce
  | _ => none

/-- The user state a handler is about to add its proof to. -/
def enqueuing : Phase → Option Ref
  | .enqueue userStateRef _ => some userStateRef
  | _ => none

/-- The user state of a handler that is about to replace a queued proof. -/
def replacing : Phase → Option Ref
  | .replace userStateRef _ => some userStateRef
  | _ => none

end Phase

/-- The handler has the property if it is at the point. -/
def System.When {Value : Type} (point : Phase → Option Value)
    (property : Request → Value → Prop) (task : TaskId) (system : System) : Prop :=
  match system.handlers task with
  | none => True
  | some (request, phase) =>
      match point phase with
      | none => True
      | some value => property request value

theorem Shared.OfBatch.current {property : InFlight → Prop} {shared : Shared} {batch : InFlight}
    {stage : Stage} (holds : shared.OfBatch property)
    (current : shared.batch = some (batch, stage)) : property batch := by
  simpa only [Shared.OfBatch, current] using holds

theorem System.When.running {Value : Type} {point : Phase → Option Value}
    {property : Request → Value → Prop} {system : System} {task : TaskId} {request : Request}
    {phase : Phase} {value : Value} (holds : system.When point property task)
    (running : system.handlers task = some (request, phase)) (isAt : point phase = some value) :
    property request value := by
  simpa only [System.When, running, isAt] using holds

theorem System.When.of_running {Value : Type} {point : Phase → Option Value}
    {property : Request → Value → Prop} {system : System} {task : TaskId}
    (holds : ∀ request phase value, system.handlers task = some (request, phase) →
      point phase = some value → property request value) : system.When point property task := by
  cases found : system.handlers task with
  | none => simp only [System.When, found]
  | some running =>
      obtain ⟨request, phase⟩ := running
      cases isAt : point phase with
      | none => simp only [System.When, found, isAt]
      | some value => simpa only [System.When, found, isAt] using holds request phase value found isAt

instance {property : InFlight → Prop} [DecidablePred property] (shared : Shared) :
    Decidable (shared.OfBatch property) :=
  match found : shared.batch with
  | none => .isTrue (by simp [Shared.OfBatch, found])
  | some (batch, _) => decidable_of_iff (property batch) (by simp [Shared.OfBatch, found])

instance {Value : Type} {point : Phase → Option Value} {property : Request → Value → Prop}
    [∀ request value, Decidable (property request value)] (task : TaskId) (system : System) :
    Decidable (system.When point property task) :=
  match found : system.handlers task with
  | none => .isTrue (by simp [System.When, found])
  | some (request, phase) =>
      match isAt : point phase with
      | none => .isTrue (by simp [System.When, found, isAt])
      | some value =>
          decidable_of_iff (property request value) (by simp [System.When, found, isAt])

end AlignedLayer
