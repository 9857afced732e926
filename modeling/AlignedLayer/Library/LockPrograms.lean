import AlignedLayer.Library.Locks
import AlignedLayer.Library.Machine
import Mathlib.Logic.Relation

/-!
# Tasks that share locks

A program is what a task does with its locks; everything else it depends on
is a choice, or a test of the shared data.  The locks are ordered by a rank,
up to a last one: while a task holds the last lock it may ask for any other.
Then every cycle of waits passes through a task that holds the last lock.
-/

namespace AlignedLayer

inductive LockProgram (Lock Data : Type) where
  | done
  | lock (guard : Guard Lock) (next : LockProgram Lock Data)
  | lockOrGiveUp (guard : Guard Lock) (givenUp next : LockProgram Lock Data)
  | tryLock (guard : Guard Lock) (busy next : LockProgram Lock Data)
  | unlock (guard : Guard Lock) (next : LockProgram Lock Data)
  | choose (other next : LockProgram Lock Data)
  | test (condition : Data → Bool) (otherwise next : LockProgram Lock Data)
  | update (change : Data → Data) (next : LockProgram Lock Data)

/-- A task; `waiting` once it has asked in vain, without a timeout. -/
structure LockTask (Lock Data : Type) where
  held : List (Guard Lock)
  waiting : Bool
  program : LockProgram Lock Data

structure LockSystem (Lock Data : Type) where
  tasks : List (LockTask Lock Data)
  data : Data

inductive LockLabel (Entry : Type) where
  | start (entry : Entry)
  | advance (index : Nat) (choice : Bool)

namespace LockTask

variable {Lock Data : Type}

/-- The guard the task asks for without a timeout. -/
def asks (task : LockTask Lock Data) : Option (Guard Lock) :=
  match task.program with
  | .lock guard _ => some guard
  | _ => none

/-- The guard the task waits for without a timeout. -/
def wanted (task : LockTask Lock Data) : Option (Guard Lock) :=
  if task.waiting then task.asks else none

def Holds (lock : Lock) (task : LockTask Lock Data) : Prop :=
  ∃ guard ∈ task.held, guard.lock = lock

instance [DecidableEq Lock] (lock : Lock) (task : LockTask Lock Data) :
    Decidable (task.Holds lock) :=
  inferInstanceAs (Decidable (∃ guard ∈ task.held, guard.lock = lock))

def move (held : List (Guard Lock)) (program : LockProgram Lock Data) : LockTask Lock Data :=
  ⟨held, false, program⟩

/-- The next action; a task that waits is given the guard once it is free. -/
def step [DecidableEq Lock] (free : Guard Lock → Bool) (choice : Bool) (data : Data)
    (task : LockTask Lock Data) : Option (LockTask Lock Data × Data) :=
  match task.program with
  | .done => none
  | .lock guard next =>
      if free guard then some (move (guard :: task.held) next, data)
      else if task.waiting then none
      else some ({ task with waiting := true }, data)
  | .lockOrGiveUp guard givenUp next =>
      if choice then some (move task.held givenUp, data)
      else if free guard then some (move (guard :: task.held) next, data)
      else none
  | .tryLock guard busy next =>
      if free guard then some (move (guard :: task.held) next, data)
      else some (move task.held busy, data)
  | .unlock guard next => some (move (task.held.erase guard) next, data)
  | .choose other next => some (move task.held (if choice then other else next), data)
  | .test condition otherwise next =>
      some (move task.held (if condition data then next else otherwise), data)
  | .update change next => some (move task.held next, change data)

end LockTask

namespace LockSystem

variable {Lock Data Entry : Type} [DecidableEq Lock]

/-- No task holds a guard that conflicts. -/
def free (system : LockSystem Lock Data) (guard : Guard Lock) : Bool :=
  system.tasks.all fun task => !decide (Guard.Blocks task.held guard)

def step (program : Entry → LockProgram Lock Data) (system : LockSystem Lock Data) :
    LockLabel Entry → Option (LockSystem Lock Data)
  | .start entry => some { system with tasks := system.tasks ++ [.move [] (program entry)] }
  | .advance index choice => do
      let task ← system.tasks[index]?
      let (moved, data) ← task.step system.free choice system.data
      some { tasks := system.tasks.set index moved, data := data }

def machine (program : Entry → LockProgram Lock Data) :
    Machine (LockSystem Lock Data) (LockLabel Entry) where
  step := LockSystem.step program

/-- The first task waits, without a timeout, for a lock that the second holds. -/
def WaitsFor (system : LockSystem Lock Data) (first second : Nat) : Prop :=
  first ≠ second ∧ ∃ task ∈ system.tasks[first]?, ∃ other ∈ system.tasks[second]?,
    ∃ guard ∈ task.wanted, Guard.Blocks other.held guard

instance (system : LockSystem Lock Data) (first second : Nat) :
    Decidable (system.WaitsFor first second) :=
  inferInstanceAs (Decidable (_ ∧ _))

/-- Some task is on a cycle of waits. -/
def Deadlocked (system : LockSystem Lock Data) : Prop :=
  ∃ index, Relation.TransGen system.WaitsFor index index

end LockSystem

/-! ## The order of the locks -/

section Order

variable {Lock Data : Type} [DecidableEq Lock] (rank : Lock → Nat) (last : Lock)

/-- Without a timeout, a task that holds the guards asks only for locks above
those it holds, or while it holds the last one. -/
@[simp]
def LockProgram.Climbs : LockProgram Lock Data → List (Guard Lock) → Prop
  | .done, _ => True
  | .lock guard next, held =>
      ((∃ taken ∈ held, taken.lock = last) ∨
        ∀ taken ∈ held, rank taken.lock < rank guard.lock) ∧
      next.Climbs (guard :: held)
  | .lockOrGiveUp guard givenUp next, held =>
      givenUp.Climbs held ∧ next.Climbs (guard :: held)
  | .tryLock guard busy next, held => busy.Climbs held ∧ next.Climbs (guard :: held)
  | .unlock guard next, held => next.Climbs (held.erase guard)
  | .choose other next, held => other.Climbs held ∧ next.Climbs held
  | .test _ otherwise next, held => otherwise.Climbs held ∧ next.Climbs held
  | .update _ next, held => next.Climbs held

def LockTask.Climbs (task : LockTask Lock Data) : Prop :=
  task.program.Climbs rank last task.held

variable {rank last} {free : Guard Lock → Bool} {choice : Bool} {data after : Data}
  {task moved : LockTask Lock Data}

theorem LockTask.Climbs.step (climbs : task.Climbs rank last)
    (stepped : task.step free choice data = some (moved, after)) : moved.Climbs rank last := by
  obtain ⟨held, waiting, program⟩ := task
  cases program with
  | done => cases stepped
  | lock guard next =>
      simp only [LockTask.step] at stepped
      split_ifs at stepped
      · cases stepped
        exact climbs.2
      · cases stepped
        exact climbs
  | lockOrGiveUp guard givenUp next =>
      simp only [LockTask.step] at stepped
      split_ifs at stepped
      · cases stepped
        exact climbs.1
      · cases stepped
        exact climbs.2
  | tryLock guard busy next =>
      simp only [LockTask.step] at stepped
      split_ifs at stepped
      · cases stepped
        exact climbs.2
      · cases stepped
        exact climbs.1
  | unlock guard next =>
      cases stepped
      exact climbs
  | choose other next =>
      cases stepped
      cases choice with
      | true => exact climbs.1
      | false => exact climbs.2
  | test condition otherwise next =>
      cases stepped
      rw [LockTask.Climbs, LockTask.move]
      split_ifs
      · exact climbs.2
      · exact climbs.1
  | update change next =>
      cases stepped
      exact climbs

/-- A step begins a wait, or leaves the task without one. -/
theorem LockTask.step_waits (stepped : task.step free choice data = some (moved, after)) :
    (moved.held = task.held ∧ moved.wanted = task.asks ∧
      ∃ guard, task.asks = some guard ∧ free guard = false) ∨ moved.wanted = none := by
  obtain ⟨held, waiting, program⟩ := task
  cases program with
  | done => cases stepped
  | lock guard next =>
      simp only [LockTask.step] at stepped
      split_ifs at stepped with isFree
      · cases stepped
        exact .inr rfl
      · cases stepped
        exact .inl ⟨rfl, rfl, guard, rfl, Bool.eq_false_iff.mpr isFree⟩
  | lockOrGiveUp guard givenUp next =>
      simp only [LockTask.step] at stepped
      split_ifs at stepped
      · cases stepped
        exact .inr rfl
      · cases stepped
        exact .inr rfl
  | tryLock guard busy next =>
      simp only [LockTask.step] at stepped
      split_ifs at stepped
      · cases stepped
        exact .inr rfl
      · cases stepped
        exact .inr rfl
  | unlock guard next =>
      cases stepped
      exact .inr rfl
  | choose other next =>
      cases stepped
      exact .inr rfl
  | test condition otherwise next =>
      cases stepped
      exact .inr rfl
  | update change next =>
      cases stepped
      exact .inr rfl

/-- What a task without the last lock waits for is above all it holds. -/
theorem LockTask.Climbs.rank_lt (climbs : task.Climbs rank last) {wanted : Guard Lock}
    (waits : task.wanted = some wanted) (others : ¬ task.Holds last)
    {taken : Guard Lock} (held : taken ∈ task.held) : rank taken.lock < rank wanted.lock := by
  obtain ⟨guards, waiting, program⟩ := task
  cases program with
  | lock guard next =>
      have asked : wanted = guard := by
        rw [LockTask.wanted] at waits
        split_ifs at waits
        cases waits
        rfl
      subst asked
      exact climbs.1.elim (fun holds => absurd holds others) fun above => above taken held
  | _ =>
      rw [LockTask.wanted] at waits
      split_ifs at waits
      cases waits

end Order

/-! ## Runs without a deadlock -/

namespace LockSystem

variable {Lock Data Entry : Type} [DecidableEq Lock]

section Guarded

variable (last : Lock) (system : LockSystem Lock Data)

/-- No task begins to wait, without a timeout, for a task that waits while it
holds the last lock itself, nor keeps one waiting that holds it. -/
def BeginsToWaitSafely : LockLabel Entry → Prop
  | .start _ => True
  | .advance index _ => ∀ task ∈ system.tasks[index]?, ∀ guard ∈ task.asks,
      system.free guard = false →
        (task.Holds last → ∀ other ∈ system.tasks.eraseIdx index,
          Guard.Blocks other.held guard → other.wanted = none) ∧
        ∀ other ∈ system.tasks.eraseIdx index, other.Holds last →
          ∀ wanted ∈ other.wanted, ¬ Guard.Blocks task.held wanted

instance (label : LockLabel Entry) : Decidable (system.BeginsToWaitSafely last label) := by
  cases label with
  | start entry => exact .isTrue trivial
  | advance index choice =>
      dsimp only [BeginsToWaitSafely]
      infer_instance

end Guarded

variable {program : Entry → LockProgram Lock Data} {rank : Lock → Nat} {last : Lock}
  {system next : LockSystem Lock Data} {label : LockLabel Entry}

variable (rank last) in
/-- Every task climbs, and none that holds the last lock waits for a task that
waits. -/
structure Disciplined (system : LockSystem Lock Data) : Prop where
  climbs : ∀ task ∈ system.tasks, task.Climbs rank last
  apart : ∀ {first second : Nat} {task other : LockTask Lock Data} {wanted : Guard Lock},
    first ≠ second → system.tasks[first]? = some task → system.tasks[second]? = some other →
      task.Holds last → task.wanted = some wanted → Guard.Blocks other.held wanted →
        other.wanted = none

omit [DecidableEq Lock] in
theorem getElem?_set_cases {tasks : List (LockTask Lock Data)} {index position : Nat}
    {moved task : LockTask Lock Data} (found : (tasks.set index moved)[position]? = some task) :
    (position = index ∧ task = moved) ∨ (position ≠ index ∧ tasks[position]? = some task) := by
  rw [List.getElem?_set] at found
  split_ifs at found with same inside
  · cases found
    exact .inl ⟨same.symm, rfl⟩
  · exact .inr ⟨Ne.symm same, found⟩

omit [DecidableEq Lock] in
theorem getElem?_append_cases {tasks : List (LockTask Lock Data)} {position : Nat}
    {started task : LockTask Lock Data} (found : (tasks ++ [started])[position]? = some task) :
    tasks[position]? = some task ∨ task = started := by
  rcases Nat.lt_or_ge position tasks.length with inside | outside
  · rw [List.getElem?_append_left inside] at found
    exact .inl found
  · rw [List.getElem?_append_right outside] at found
    exact .inr (List.mem_singleton.mp (List.mem_of_getElem? found))

theorem Disciplined.start {started : LockTask Lock Data} (disciplined : system.Disciplined rank last)
    (climbs : started.Climbs rank last) (idle : started.held = []) (quiet : started.wanted = none) :
    Disciplined rank last { system with tasks := system.tasks ++ [started] } where
  climbs task member := by
    rcases List.mem_append.mp member with before | isNew
    · exact disciplined.climbs task before
    · rw [List.mem_singleton.mp isNew]
      exact climbs
  apart different first second holds waits blocks := by
    rcases getElem?_append_cases first with firstBefore | rfl
    · rcases getElem?_append_cases second with secondBefore | rfl
      · exact disciplined.apart different firstBefore secondBefore holds waits blocks
      · exact quiet
    · rw [quiet] at waits
      cases waits

theorem Disciplined.advance {index : Nat} {choice : Bool} {task moved : LockTask Lock Data}
    {data : Data} (disciplined : system.Disciplined rank last)
    (safely : system.BeginsToWaitSafely last (.advance index choice : LockLabel Entry))
    (found : system.tasks[index]? = some task)
    (stepped : task.step system.free choice system.data = some (moved, data)) :
    Disciplined rank last { tasks := system.tasks.set index moved, data := data } where
  climbs other member := by
    rcases List.mem_or_eq_of_mem_set member with before | rfl
    · exact disciplined.climbs other before
    · exact (disciplined.climbs task (List.mem_of_getElem? found)).step stepped
  apart {first second waiting other wanted} different firstFound secondFound holds waits
      blocks := by
    rcases getElem?_set_cases firstFound with ⟨rfl, rfl⟩ | ⟨firstOther, firstBefore⟩
    · rcases getElem?_set_cases secondFound with ⟨rfl, rfl⟩ | ⟨secondOther, secondBefore⟩
      · exact absurd rfl different
      · rcases LockTask.step_waits stepped with ⟨sameHeld, sameWanted, guard, asked, busy⟩ | quiet
        · have member : other ∈ system.tasks.eraseIdx first :=
            List.mem_eraseIdx_iff_getElem?.mpr ⟨second, secondOther, secondBefore⟩
          have holdsBefore : task.Holds last := by
            rw [LockTask.Holds, ← sameHeld]
            exact holds
          rw [sameWanted, asked, Option.some.injEq] at waits
          subst waits
          exact (safely task found guard asked busy).1 holdsBefore other member blocks
        · rw [quiet] at waits
          cases waits
    · rcases getElem?_set_cases secondFound with ⟨rfl, rfl⟩ | ⟨secondOther, secondBefore⟩
      · rcases LockTask.step_waits stepped with ⟨sameHeld, sameWanted, guard, asked, busy⟩ | quiet
        · have member : waiting ∈ system.tasks.eraseIdx second :=
            List.mem_eraseIdx_iff_getElem?.mpr ⟨first, firstOther, firstBefore⟩
          rw [sameHeld] at blocks
          exact absurd blocks
            ((safely task found guard asked busy).2 waiting member holds wanted waits)
        · exact quiet
      · exact disciplined.apart different firstBefore secondBefore holds waits blocks

theorem Disciplined.step (climbs : ∀ entry, (program entry).Climbs rank last [])
    (disciplined : system.Disciplined rank last) (safely : system.BeginsToWaitSafely last label)
    (stepped : system.step program label = some next) : next.Disciplined rank last := by
  cases label with
  | start entry =>
      cases stepped
      exact disciplined.start (climbs entry) rfl rfl
  | advance index choice =>
      obtain ⟨task, found, continued⟩ := Option.bind_eq_some_iff.mp stepped
      obtain ⟨⟨moved, data⟩, taken, ended⟩ := Option.bind_eq_some_iff.mp continued
      cases ended
      exact disciplined.advance safely found taken

/-! ### Cycles -/

variable (rank) in
/-- The rank of the lock that the task waits for. -/
def height (system : LockSystem Lock Data) (index : Nat) : Nat :=
  match system.tasks[index]?.bind LockTask.wanted with
  | some guard => rank guard.lock
  | none => 0

omit [DecidableEq Lock] in
theorem height_of_wanted {index : Nat} {task : LockTask Lock Data} {guard : Guard Lock}
    (found : system.tasks[index]? = some task) (asked : task.wanted = some guard) :
    system.height rank index = rank guard.lock := by
  rw [height, found, Option.bind_some, asked]

/-- A task that waits for one that waits does not hold the last lock. -/
theorem Disciplined.not_holds (disciplined : system.Disciplined rank last)
    {first second third : Nat} (waits : system.WaitsFor first second)
    (onward : system.WaitsFor second third) {task : LockTask Lock Data}
    (found : system.tasks[first]? = some task) : ¬ task.Holds last := by
  obtain ⟨different, waiting, firstFound, other, secondFound, guard, asked, blocks⟩ := waits
  obtain ⟨-, again, sameFound, -, -, wanted, askedOnward, -⟩ := onward
  cases Option.some.inj (found.symm.trans firstFound)
  cases Option.some.inj (Eq.trans (Eq.symm secondFound) sameFound)
  intro holds
  have quiet := disciplined.apart different firstFound secondFound holds asked blocks
  rw [Option.mem_def, quiet] at askedOnward
  cases askedOnward

/-- Waits climb, as long as they go on. -/
theorem Disciplined.height_lt (disciplined : system.Disciplined rank last)
    {first second third fourth : Nat} (waits : system.WaitsFor first second)
    (onward : system.WaitsFor second third) (further : system.WaitsFor third fourth) :
    system.height rank first < system.height rank second := by
  obtain ⟨-, task, firstFound, other, secondFound, guard, asked, taken, held, conflict⟩ := waits
  have others : ¬ other.Holds last := disciplined.not_holds onward further secondFound
  obtain ⟨-, again, sameFound, -, -, wanted, askedOnward, -⟩ := onward
  cases Option.some.inj (Eq.trans (Eq.symm secondFound) sameFound)
  have climbs := disciplined.climbs other (List.mem_of_getElem? secondFound)
  calc system.height rank first
      = rank guard.lock := height_of_wanted firstFound asked
    _ = rank taken.lock := by rw [conflict.1]
    _ < rank wanted.lock := climbs.rank_lt askedOnward others held
    _ = system.height rank second := (height_of_wanted secondFound askedOnward).symm

theorem Disciplined.height_lt_of_path (disciplined : system.Disciplined rank last)
    {first second third fourth : Nat} (path : Relation.TransGen system.WaitsFor first second)
    (onward : system.WaitsFor second third) (further : system.WaitsFor third fourth) :
    system.height rank first < system.height rank second := by
  induction path generalizing third fourth with
  | single waits => exact disciplined.height_lt waits onward further
  | tail path waits induction =>
      have before := induction waits onward
      have climbed := disciplined.height_lt waits onward further
      exact Nat.lt_trans before climbed

theorem Disciplined.not_deadlocked (disciplined : system.Disciplined rank last) :
    ¬ system.Deadlocked := by
  rintro ⟨index, cycle⟩
  obtain ⟨second, waits, back⟩ := Relation.TransGen.head'_iff.mp cycle
  obtain ⟨third, onward, -⟩ := Relation.TransGen.head'_iff.mp (Relation.TransGen.tail' back waits)
  exact Nat.lt_irrefl _ (disciplined.height_lt_of_path cycle waits onward)

/-- Programs that climb do not deadlock in a run whose waits all begin safely. -/
theorem not_deadlocked_of_run (climbs : ∀ entry, (program entry).Climbs rank last [])
    {data : Data} {labels : List (LockLabel Entry)} {finish : LockSystem Lock Data}
    (safely : (machine program).Meets (BeginsToWaitSafely last) ⟨[], data⟩ labels)
    (ran : (machine program).run ⟨[], data⟩ labels = some finish) : ¬ finish.Deadlocked := by
  have initial : Disciplined rank last (⟨[], data⟩ : LockSystem Lock Data) := by
    constructor
    · intro task member
      cases member
    · intro first second task other wanted different found
      cases found
  have preserved : ∀ {state next : LockSystem Lock Data} {label : LockLabel Entry},
      state.Disciplined rank last → state.BeginsToWaitSafely last label →
        (machine program).step state label = some next → next.Disciplined rank last := by
    intro state next label disciplined begins stepped
    exact disciplined.step climbs begins stepped
  have disciplined := Machine.run_preserves preserved initial safely ran
  exact disciplined.not_deadlocked

end LockSystem

end AlignedLayer
