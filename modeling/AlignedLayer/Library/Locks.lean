import Mathlib.Data.List.Basic

/-!
# Locks that are not reentrant

Any number of guards can hold a lock for reading, or one for writing; a mutex
is a lock that is only written.  `Locking` runs one task over the list of its
guards and fails at the first guard it waits for while it holds the lock
itself.
-/

namespace AlignedLayer

inductive Access where
  | read
  | write
  deriving DecidableEq

structure Guard (Lock : Type) where
  lock : Lock
  access : Access
  deriving DecidableEq

namespace Guard

variable {Lock : Type}

def read (lock : Lock) : Guard Lock :=
  ⟨lock, .read⟩

def write (lock : Lock) : Guard Lock :=
  ⟨lock, .write⟩

/-- Two guards that cannot be held at once. -/
def Conflicts (held wanted : Guard Lock) : Prop :=
  held.lock = wanted.lock ∧ (held.access = .write ∨ wanted.access = .write)

instance [DecidableEq Lock] (held wanted : Guard Lock) : Decidable (held.Conflicts wanted) :=
  inferInstanceAs (Decidable (_ ∧ _))

/-- One of the guards keeps the wanted one from being given. -/
def Blocks (held : List (Guard Lock)) (wanted : Guard Lock) : Prop :=
  ∃ guard ∈ held, guard.Conflicts wanted

instance [DecidableEq Lock] (held : List (Guard Lock)) (wanted : Guard Lock) :
    Decidable (Blocks held wanted) :=
  inferInstanceAs (Decidable (∃ guard ∈ held, guard.Conflicts wanted))

@[simp]
theorem not_blocks_nil (wanted : Guard Lock) : ¬ Blocks [] wanted := by
  rintro ⟨guard, member, -⟩
  cases member

@[simp]
theorem blocks_cons {guard : Guard Lock} {held : List (Guard Lock)} {wanted : Guard Lock} :
    Blocks (guard :: held) wanted ↔ guard.Conflicts wanted ∨ Blocks held wanted :=
  List.exists_mem_cons_iff _ _ _

end Guard

/-- A computation over the guards of a task.  The error is a guard that the
task waits for although it holds the lock. -/
abbrev Locking (Lock : Type) : Type → Type :=
  StateT (List (Guard Lock)) (Except (Guard Lock))

namespace Locking

variable {Lock : Type} [DecidableEq Lock] {Result Next : Type} {held : List (Guard Lock)}
  {guard : Guard Lock} {free : Bool}

def acquire (guard : Guard Lock) : Locking Lock Unit := fun held =>
  if Guard.Blocks held guard then .error guard else .ok ((), guard :: held)

/-- Takes the guard at once or not at all; `free` when no other task is in
the way. -/
def tryAcquire (guard : Guard Lock) (free : Bool) : Locking Lock Bool := fun held =>
  if free = true ∧ ¬ Guard.Blocks held guard then .ok (true, guard :: held)
  else .ok (false, held)

def release (guard : Guard Lock) : Locking Lock Unit := fun held =>
  .ok ((), held.erase guard)

/-- The guard lives as long as the body. -/
def holding (guard : Guard Lock) (body : Locking Lock Result) : Locking Lock Result := do
  acquire guard
  let result ← body
  release guard
  pure result

/-- The body runs only if the guard can be taken at once. -/
def tryHolding (guard : Guard Lock) (free : Bool) (body : Locking Lock (Option Result)) :
    Locking Lock (Option Result) := do
  if ← tryAcquire guard free then
    let result ← body
    release guard
    pure result
  else
    pure none

omit [DecidableEq Lock] in
theorem bind_of_ok {run : Locking Lock Result} {next : Result → Locking Lock Next}
    {result : Result} {after : List (Guard Lock)} (ran : run held = .ok (result, after)) :
    (run >>= next) held = next result after := by
  change (run held >>= _) = _
  rw [ran]
  rfl

omit [DecidableEq Lock] in
theorem bind_of_error {run : Locking Lock Result} {next : Result → Locking Lock Next}
    (stuck : run held = .error guard) : (run >>= next) held = .error guard := by
  change (run held >>= _) = _
  rw [stuck]
  rfl

theorem acquire_of_free (isFree : ¬ Guard.Blocks held guard) :
    acquire guard held = .ok ((), guard :: held) :=
  if_neg isFree

theorem acquire_of_blocks (blocked : Guard.Blocks held guard) :
    acquire guard held = .error guard :=
  if_pos blocked

theorem tryAcquire_of_free (isFree : ¬ Guard.Blocks held guard) :
    tryAcquire guard true held = .ok (true, guard :: held) :=
  if_pos ⟨rfl, isFree⟩

theorem tryAcquire_of_busy (busy : ¬ (free = true ∧ ¬ Guard.Blocks held guard)) :
    tryAcquire guard free held = .ok (false, held) :=
  if_neg busy

/-! ## Runs that end with the guards they began with -/

/-- The run ends, with the same guards. -/
def Returns (run : Locking Lock Result) (held : List (Guard Lock)) : Prop :=
  ∃ result, run held = .ok (result, held)

/-- The task reaches a lock that it holds itself. -/
def WaitsForItself (run : Locking Lock Result) (held : List (Guard Lock)) : Prop :=
  ∃ wanted, run held = .error wanted

omit [DecidableEq Lock] in
theorem Returns.not_waits {run : Locking Lock Result} (returns : run.Returns held) :
    ¬ run.WaitsForItself held := by
  rintro ⟨wanted, stuck⟩
  obtain ⟨result, ran⟩ := returns
  rw [ran] at stuck
  cases stuck

omit [DecidableEq Lock] in
theorem returns_pure (result : Result) : Returns (pure result : Locking Lock Result) held :=
  ⟨result, rfl⟩

omit [DecidableEq Lock] in
theorem Returns.bind {run : Locking Lock Result} {next : Result → Locking Lock Next}
    (returns : run.Returns held) (continues : ∀ result, (next result).Returns held) :
    Returns (run >>= next) held := by
  obtain ⟨result, ran⟩ := returns
  obtain ⟨last, continued⟩ := continues result
  exact ⟨last, (bind_of_ok ran).trans continued⟩

omit [DecidableEq Lock] in
theorem WaitsForItself.bind {run : Locking Lock Result} {next : Result → Locking Lock Next}
    (waits : run.WaitsForItself held) : WaitsForItself (run >>= next) held := by
  obtain ⟨wanted, stuck⟩ := waits
  exact ⟨wanted, bind_of_error stuck⟩

theorem holding_of_free {body : Locking Lock Result} (isFree : ¬ Guard.Blocks held guard) :
    holding guard body held =
      (body >>= fun result => release guard >>= fun _ => pure result) (guard :: held) :=
  bind_of_ok (acquire_of_free isFree)

theorem holding_ok {body : Locking Lock Result} {result : Result}
    (isFree : ¬ Guard.Blocks held guard)
    (ran : body (guard :: held) = .ok (result, guard :: held)) :
    holding guard body held = .ok (result, held) := by
  rw [holding_of_free isFree, bind_of_ok ran]
  change Except.ok (result, (guard :: held).erase guard) = _
  rw [List.erase_cons_head]

theorem Returns.holding {body : Locking Lock Result} (isFree : ¬ Guard.Blocks held guard)
    (returns : body.Returns (guard :: held)) : (holding guard body).Returns held := by
  obtain ⟨result, ran⟩ := returns
  exact ⟨result, holding_ok isFree ran⟩

theorem WaitsForItself.holding {body : Locking Lock Result}
    (isFree : ¬ Guard.Blocks held guard) (waits : body.WaitsForItself (guard :: held)) :
    (holding guard body).WaitsForItself held := by
  obtain ⟨wanted, stuck⟩ := waits
  exact ⟨wanted, by rw [holding_of_free isFree, bind_of_error stuck]⟩

theorem waits_holding {body : Locking Lock Result} (blocked : Guard.Blocks held guard) :
    (holding guard body).WaitsForItself held :=
  ⟨guard, bind_of_error (acquire_of_blocks blocked)⟩

theorem tryHolding_of_free {body : Locking Lock (Option Result)}
    (isFree : ¬ Guard.Blocks held guard) :
    tryHolding guard true body held =
      (body >>= fun result => release guard >>= fun _ => pure result) (guard :: held) :=
  bind_of_ok (tryAcquire_of_free isFree)

theorem tryHolding_ok {body : Locking Lock (Option Result)} {result : Option Result}
    (isFree : ¬ Guard.Blocks held guard)
    (ran : body (guard :: held) = .ok (result, guard :: held)) :
    tryHolding guard true body held = .ok (result, held) := by
  rw [tryHolding_of_free isFree, bind_of_ok ran]
  change Except.ok (result, (guard :: held).erase guard) = _
  rw [List.erase_cons_head]

theorem Returns.tryHolding {body : Locking Lock (Option Result)}
    (returns : free = true → ¬ Guard.Blocks held guard → body.Returns (guard :: held)) :
    (tryHolding guard free body).Returns held := by
  by_cases taken : free = true ∧ ¬ Guard.Blocks held guard
  · obtain ⟨rfl, isFree⟩ := taken
    obtain ⟨result, ran⟩ := returns rfl isFree
    exact ⟨result, tryHolding_ok isFree ran⟩
  · exact ⟨none, bind_of_ok (tryAcquire_of_busy taken)⟩

theorem WaitsForItself.tryHolding {body : Locking Lock (Option Result)}
    (isFree : ¬ Guard.Blocks held guard) (waits : body.WaitsForItself (guard :: held)) :
    (tryHolding guard true body).WaitsForItself held := by
  obtain ⟨wanted, stuck⟩ := waits
  exact ⟨wanted, by rw [tryHolding_of_free isFree, bind_of_error stuck]⟩

end Locking

end AlignedLayer
