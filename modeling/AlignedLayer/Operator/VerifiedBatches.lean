import AlignedLayer.Operator.CheckedBytes
import AlignedLayer.Operator.ProofWorkers
import AlignedLayer.Library.Slots
import AlignedLayer.Library.Termination

/-!
# The operator signs verified batches

Every item of the batch is at one place: not sent yet, in the channel, with a
worker, or answered.  No schedule runs forever and none gets stuck before the
function has returned, so that its result depends on the answers alone.
-/

namespace AlignedLayer.Operator

def Worker.inHand : Worker → List VerificationData
  | .verifying data => [data]
  | .ranging | .done => []

/-- What is left to do, counted in steps of the machine. -/
def Worker.workLeft : Worker → Nat
  | .ranging => 1
  | .verifying _ => 3
  | .done => 0

namespace ProcessPhase

def workLeft (batch : List VerificationData) : ProcessPhase → Nat
  | .reporting => 2
  | .spawning left => 2 * left + 4 * batch.length + 3
  | .sending rest => 4 * rest.length + 2
  | .receiving => 1
  | .returned _ => 0

/-- The items not in the channel yet. -/
def unsent (batch : List VerificationData) : ProcessPhase → List VerificationData
  | .spawning _ => batch
  | .sending rest => rest
  | .reporting | .receiving | .returned _ => []

def toSpawn : ProcessPhase → Nat
  | .spawning left => left
  | .reporting | .sending _ | .receiving | .returned _ => 0

/-- The jobs have all been sent. -/
def hasSent : ProcessPhase → Bool
  | .receiving | .returned _ => true
  | .reporting | .spawning _ | .sending _ => false

/-- What the results received so far must have been. -/
def Agrees (received : List Bool) : ProcessPhase → Prop
  | .returned false => false ∈ received
  | .returned true | .reporting | .spawning _ | .sending _ | .receiving =>
      ∀ result ∈ received, result = true

end ProcessPhase

namespace WorkerPool

variable {verifier : VerifierCall → Bool} {disabledVerifiersBitmap : Nat}
  {batch : List VerificationData} {pool next : WorkerPool} {goroutine : Goroutine}

def inHand (pool : WorkerPool) : List VerificationData :=
  pool.workers.flatMap Worker.inHand

/-- The answered items, those in hand, in the channel, and not sent yet. -/
def items (batch : List VerificationData) (pool : WorkerPool) : List VerificationData :=
  pool.answered.map Prod.fst ++ (pool.inHand ++ (pool.jobs ++ pool.phase.unsent batch))

structure Accounted (verifier : VerifierCall → Bool) (disabledVerifiersBitmap : Nat)
    (batch : List VerificationData) (workerCount : Nat) (pool : WorkerPool) : Prop where
  placed : (pool.items batch).Perm batch
  answers : ∀ answer ∈ pool.answered,
    verifyItem verifier disabledVerifiersBitmap answer.1 = some answer.2
  received : ∃ received, pool.answered.map Prod.snd = received ++ pool.results ∧
    pool.phase.Agrees received
  jobsClosed : pool.jobsClosed = pool.phase.hasSent
  done : ∀ worker ∈ pool.workers, worker = .done → pool.jobsClosed = true ∧ pool.jobs = []
  spawned : pool.workers.length + pool.phase.toSpawn = workerCount
  resultsClosed : pool.resultsClosed = true →
    pool.jobsClosed = true ∧ ∀ worker ∈ pool.workers, worker = .done
  succeeded : pool.phase = .returned true → pool.resultsClosed = true ∧ pool.results = []
  notReporting : pool.phase ≠ .reporting

/-- Where a worker does not panic it sends the result of the verification. -/
theorem verifyItem_eq {data : VerificationData} {result : Bool}
    (verified : verifyItem verifier disabledVerifiersBitmap data = some result) :
    result = verify verifier disabledVerifiersBitmap data := by
  rw [verifyItem] at verified
  rw [verify]
  split at verified
  · obtain ⟨-, -, same⟩ := Option.map_eq_some_iff.mp verified
    rw [if_pos ‹_›]
    exact same.symm
  · rw [if_neg ‹_›]
    cases call : verifierCall data with
    | none => simpa [call] using verified.symm
    | some => simpa [call] using verified.symm

theorem verifyItem_eq_none_iff {data : VerificationData} :
    verifyItem verifier disabledVerifiersBitmap data = none ↔
      isVerifierDisabled disabledVerifiersBitmap data.provingSystemId = true ∧
        4 ≤ data.provingSystemId.toNat := by
  rw [verifyItem]
  split
  case isTrue disabled =>
    simp [disabled, provingSystemIdString]
  case isFalse enabled =>
    cases verifierCall data <;> simp [enabled]

/-! ## What a step can do -/

inductive Move (verifier : VerifierCall → Bool) (disabledVerifiersBitmap : Nat)
    (batch : List VerificationData) (pool : WorkerPool) : WorkerPool → Prop where
  | reports (phase : pool.phase = .reporting) :
      Move verifier disabledVerifiersBitmap batch pool
        { pool with results := pool.results ++ [false], phase := .returned false }
  | spawns {left : Nat} (phase : pool.phase = .spawning (left + 1)) :
      Move verifier disabledVerifiersBitmap batch pool
        { pool with workers := pool.workers ++ [.ranging], phase := .spawning left }
  | starts (phase : pool.phase = .spawning 0) :
      Move verifier disabledVerifiersBitmap batch pool { pool with phase := .sending batch }
  | sends {data : VerificationData} {rest : List VerificationData}
      (phase : pool.phase = .sending (data :: rest)) :
      Move verifier disabledVerifiersBitmap batch pool
        { pool with jobs := pool.jobs ++ [data], phase := .sending rest }
  | closesJobs (phase : pool.phase = .sending []) :
      Move verifier disabledVerifiersBitmap batch pool
        { pool with jobsClosed := true, phase := .receiving }
  | receives {rest : List Bool} (phase : pool.phase = .receiving)
      (results : pool.results = true :: rest) :
      Move verifier disabledVerifiersBitmap batch pool { pool with results := rest }
  | fails {rest : List Bool} (phase : pool.phase = .receiving)
      (results : pool.results = false :: rest) :
      Move verifier disabledVerifiersBitmap batch pool
        { pool with results := rest, phase := .returned false }
  | succeeds (phase : pool.phase = .receiving) (results : pool.results = [])
      (closed : pool.resultsClosed = true) :
      Move verifier disabledVerifiersBitmap batch pool { pool with phase := .returned true }
  | takes {index : Nat} {data : VerificationData} {rest : List VerificationData}
      (worker : pool.workers[index]? = some .ranging) (jobs : pool.jobs = data :: rest) :
      Move verifier disabledVerifiersBitmap batch pool
        { pool with jobs := rest, workers := pool.workers.set index (.verifying data) }
  | finishes {index : Nat} (worker : pool.workers[index]? = some .ranging)
      (jobs : pool.jobs = []) (closed : pool.jobsClosed = true) :
      Move verifier disabledVerifiersBitmap batch pool
        { pool with workers := pool.workers.set index .done }
  | panics {index : Nat} {data : VerificationData}
      (worker : pool.workers[index]? = some (.verifying data))
      (noName : verifyItem verifier disabledVerifiersBitmap data = none)
      (running : pool.panicked = false) :
      Move verifier disabledVerifiersBitmap batch pool { pool with panicked := true }
  | answers {index : Nat} {data : VerificationData} {result : Bool}
      (worker : pool.workers[index]? = some (.verifying data))
      (verified : verifyItem verifier disabledVerifiersBitmap data = some result) :
      Move verifier disabledVerifiersBitmap batch pool
        { pool with
          results := pool.results ++ [result]
          answered := pool.answered ++ [(data, result)]
          workers := pool.workers.set index .ranging }
  | closesResults (jobsClosed : pool.jobsClosed = true) (still : ¬ pool.resultsClosed = true)
      (allDone : ∀ worker ∈ pool.workers, worker = .done) :
      Move verifier disabledVerifiersBitmap batch pool { pool with resultsClosed := true }

theorem processStep_move (stepped : pool.processStep batch = some next) :
    Move verifier disabledVerifiersBitmap batch pool next := by
  unfold processStep at stepped
  split at stepped
  case h_1 phase =>
    split at stepped
    · cases stepped
      exact .reports phase
    · cases stepped
  case h_2 left phase =>
    cases stepped
    exact .spawns phase
  case h_3 phase =>
    cases stepped
    exact .starts phase
  case h_4 data rest phase =>
    split at stepped
    · cases stepped
      exact .sends phase
    · cases stepped
  case h_5 phase =>
    cases stepped
    exact .closesJobs phase
  case h_6 phase =>
    split at stepped
    case h_1 rest results =>
      cases stepped
      exact .receives phase results
    case h_2 rest results =>
      cases stepped
      exact .fails phase results
    case h_3 results =>
      split at stepped
      case isTrue closed =>
        cases stepped
        exact .succeeds phase results closed
      case isFalse => cases stepped
  case h_7 => cases stepped

theorem workerStep_move {index : Nat} (running : pool.panicked = false)
    (stepped : pool.workerStep verifier disabledVerifiersBitmap batch index = some next) :
    Move verifier disabledVerifiersBitmap batch pool next := by
  unfold workerStep at stepped
  split at stepped
  case h_1 worker =>
    split at stepped
    case h_1 data rest jobs =>
      cases stepped
      exact .takes worker jobs
    case h_2 jobs =>
      split at stepped
      case isTrue closed =>
        cases stepped
        exact .finishes worker jobs closed
      case isFalse => cases stepped
  case h_2 data worker =>
    split at stepped
    case h_1 noName =>
      cases stepped
      exact .panics worker noName running
    case h_2 result verified =>
      split at stepped
      · cases stepped
        exact .answers worker verified
      · cases stepped
  case h_3 => cases stepped
  case h_4 => cases stepped

theorem step_move
    (stepped : step verifier disabledVerifiersBitmap batch pool goroutine = some next) :
    Move verifier disabledVerifiersBitmap batch pool next := by
  unfold step at stepped
  split at stepped
  case isTrue => cases stepped
  case isFalse running =>
    split at stepped
    case h_1 => exact processStep_move stepped
    case h_2 => exact workerStep_move (Bool.eq_false_of_not_eq_true running) stepped
    case h_3 =>
      unfold closerStep at stepped
      split at stepped
      case isTrue closing =>
        cases stepped
        exact .closesResults closing.1 closing.2.1 closing.2.2
      case isFalse => cases stepped

/-! ## Every schedule ends -/

def workLeft (batch : List VerificationData) (pool : WorkerPool) : Nat :=
  pool.phase.workLeft batch + 3 * pool.jobs.length + (pool.workers.map Worker.workLeft).sum +
    pool.results.length + (if pool.resultsClosed then 0 else 1) + if pool.panicked then 0 else 1

theorem Move.lowers (move : Move verifier disabledVerifiersBitmap batch pool next) :
    next.workLeft batch < pool.workLeft batch := by
  cases move with
  | reports phase | spawns phase | starts phase | sends phase | closesJobs phase
  | succeeds phase =>
      simp only [workLeft, phase, ProcessPhase.workLeft, Worker.workLeft, List.map_append,
        List.map_cons, List.map_nil, List.sum_append, List.sum_cons, List.sum_nil,
        List.length_append, List.length_cons, List.length_nil]
      omega
  | receives phase results | fails phase results =>
      simp only [workLeft, phase, results, ProcessPhase.workLeft, List.length_cons]
      omega
  | takes worker jobs =>
      simp only [workLeft, sum_of_slot worker, sum_set worker, jobs, List.length_cons,
        Worker.workLeft]
      omega
  | finishes worker | answers worker =>
      simp only [workLeft, sum_of_slot worker, sum_set worker, List.length_append,
        List.length_singleton, Worker.workLeft]
      omega
  | panics worker noName running => simp [workLeft, running]
  | closesResults jobsClosed still => simp [workLeft, still]

theorem lowers_workLeft :
    (machine verifier disabledVerifiersBitmap batch).Lowers (workLeft batch) :=
  fun stepped => (step_move stepped).lowers

/-! ## Every item is at one place -/

theorem not_done_of_slot {index : Nat} {worker : Worker}
    (found : pool.workers[index]? = some worker) (busy : worker ≠ .done) :
    ¬ ∀ worker ∈ pool.workers, worker = .done :=
  fun allDone => busy (allDone worker (List.mem_of_getElem? found))

namespace Accounted

variable {workerCount : Nat}

theorem of_phase (accounted : pool.Accounted verifier disabledVerifiersBitmap batch workerCount)
    {phase : ProcessPhase} (same : pool.phase = phase) (notClosed : phase.hasSent = false) :
    ¬ pool.jobsClosed = true := by
  rw [accounted.jobsClosed, same, notClosed]
  exact Bool.false_ne_true

theorem takes (accounted : pool.Accounted verifier disabledVerifiersBitmap batch workerCount)
    {index : Nat} {data : VerificationData} {rest : List VerificationData}
    (worker : pool.workers[index]? = some .ranging) (jobs : pool.jobs = data :: rest) :
    Accounted verifier disabledVerifiersBitmap batch workerCount
      { pool with jobs := rest, workers := pool.workers.set index (.verifying data) } := by
  obtain ⟨placed, answers, received, jobsClosed, done, spawned, resultsClosed, succeeded,
    notReporting⟩ := accounted
  constructor
  case placed =>
    refine List.Perm.trans ?_ placed
    simp only [items, inHand, jobs]
    apply List.Perm.append_left
    have taken := (flatMap_set worker (.verifying data) Worker.inHand).append_right
      (rest ++ pool.phase.unsent batch)
    have before := (flatMap_of_slot worker Worker.inHand).append_right
      (data :: rest ++ pool.phase.unsent batch)
    exact (taken.trans List.perm_middle.symm).trans before.symm
  case done =>
    intro other member isDone
    rcases List.mem_or_eq_of_mem_set member with old | new
    · have empty := (done other old isDone).2
      rw [jobs] at empty
      cases empty
    · rw [isDone] at new
      cases new
  case spawned => simpa using spawned
  case resultsClosed =>
    intro closed
    exact absurd (resultsClosed closed).2 (not_done_of_slot worker (by simp))
  all_goals assumption

theorem finishes (accounted : pool.Accounted verifier disabledVerifiersBitmap batch workerCount)
    {index : Nat} (worker : pool.workers[index]? = some .ranging) (jobs : pool.jobs = [])
    (closed : pool.jobsClosed = true) :
    Accounted verifier disabledVerifiersBitmap batch workerCount
      { pool with workers := pool.workers.set index .done } := by
  obtain ⟨placed, answers, received, jobsClosed, done, spawned, resultsClosed, succeeded,
    notReporting⟩ := accounted
  constructor
  case placed =>
    refine List.Perm.trans ?_ placed
    simp only [items, inHand]
    apply List.Perm.append_left
    apply List.Perm.append_right
    exact (flatMap_set worker .done Worker.inHand).trans
      (flatMap_of_slot worker Worker.inHand).symm
  case done => exact fun _ _ _ => ⟨closed, jobs⟩
  case spawned => simpa using spawned
  case resultsClosed =>
    intro closed
    exact absurd (resultsClosed closed).2 (not_done_of_slot worker (by simp))
  all_goals assumption

theorem answersItem
    (accounted : pool.Accounted verifier disabledVerifiersBitmap batch workerCount)
    {index : Nat} {data : VerificationData} {result : Bool}
    (worker : pool.workers[index]? = some (.verifying data))
    (verified : verifyItem verifier disabledVerifiersBitmap data = some result) :
    Accounted verifier disabledVerifiersBitmap batch workerCount
      { pool with
        results := pool.results ++ [result]
        answered := pool.answered ++ [(data, result)]
        workers := pool.workers.set index .ranging } := by
  obtain ⟨placed, answers, received, jobsClosed, done, spawned, resultsClosed, succeeded,
    notReporting⟩ := accounted
  constructor
  case placed =>
    refine List.Perm.trans ?_ placed
    simp only [items, inHand, List.map_append, List.map_cons, List.map_nil, List.append_assoc]
    apply List.Perm.append_left
    have taken := (flatMap_set worker .ranging Worker.inHand).append_right
      (pool.jobs ++ pool.phase.unsent batch)
    have before := (flatMap_of_slot worker Worker.inHand).append_right
      (pool.jobs ++ pool.phase.unsent batch)
    exact (taken.cons data).trans before.symm
  case answers =>
    intro answer member
    rcases List.mem_append.mp member with old | new
    · exact answers answer old
    · rw [List.mem_singleton] at new
      rw [new]
      exact verified
  case received =>
    obtain ⟨received, split, agrees⟩ := received
    refine ⟨received, ?_, agrees⟩
    simp [split]
  case done =>
    intro other member isDone
    rcases List.mem_or_eq_of_mem_set member with old | new
    · exact done other old isDone
    · rw [isDone] at new
      cases new
  case spawned => simpa using spawned
  case resultsClosed =>
    intro closed
    exact absurd (resultsClosed closed).2 (not_done_of_slot worker (by simp))
  case succeeded =>
    intro success
    have closed := (succeeded success).1
    exact absurd (resultsClosed closed).2 (not_done_of_slot worker (by simp))
  all_goals assumption

theorem spawns (accounted : pool.Accounted verifier disabledVerifiersBitmap batch workerCount)
    {left : Nat} (phase : pool.phase = .spawning (left + 1)) :
    Accounted verifier disabledVerifiersBitmap batch workerCount
      { pool with workers := pool.workers ++ [.ranging], phase := .spawning left } := by
  have stillOpen : ¬ pool.jobsClosed = true := accounted.of_phase phase rfl
  obtain ⟨placed, answers, received, jobsClosed, done, spawned, resultsClosed, succeeded,
    notReporting⟩ := accounted
  rw [phase] at jobsClosed received spawned
  constructor
  case placed =>
    simpa [items, inHand, Worker.inHand, ProcessPhase.unsent, phase] using placed
  case done =>
    intro other member isDone
    rcases List.mem_append.mp member with old | new
    · exact done other old isDone
    · rw [List.mem_singleton, isDone] at new
      cases new
  case spawned =>
    simp only [ProcessPhase.toSpawn, List.length_append, List.length_singleton] at spawned ⊢
    omega
  case resultsClosed => exact fun closed => absurd (resultsClosed closed).1 stillOpen
  case succeeded => exact fun success => by cases success
  case notReporting => exact fun reporting => by cases reporting
  all_goals assumption

theorem sends (accounted : pool.Accounted verifier disabledVerifiersBitmap batch workerCount)
    {data : VerificationData} {rest : List VerificationData}
    (phase : pool.phase = .sending (data :: rest)) :
    Accounted verifier disabledVerifiersBitmap batch workerCount
      { pool with jobs := pool.jobs ++ [data], phase := .sending rest } := by
  have stillOpen : ¬ pool.jobsClosed = true := accounted.of_phase phase rfl
  obtain ⟨placed, answers, received, jobsClosed, done, spawned, resultsClosed, succeeded,
    notReporting⟩ := accounted
  rw [phase] at jobsClosed received spawned
  constructor
  case placed =>
    simpa [items, inHand, ProcessPhase.unsent, phase] using placed
  case done =>
    intro other member isDone
    exact absurd (done other member isDone).1 stillOpen
  case succeeded => exact fun success => by cases success
  case notReporting => exact fun reporting => by cases reporting
  all_goals assumption

theorem closesJobs
    (accounted : pool.Accounted verifier disabledVerifiersBitmap batch workerCount)
    (phase : pool.phase = .sending []) :
    Accounted verifier disabledVerifiersBitmap batch workerCount
      { pool with jobsClosed := true, phase := .receiving } := by
  have stillOpen : ¬ pool.jobsClosed = true := accounted.of_phase phase rfl
  obtain ⟨placed, answers, received, jobsClosed, done, spawned, resultsClosed, succeeded,
    notReporting⟩ := accounted
  rw [phase] at received spawned
  constructor
  case placed =>
    simpa [items, inHand, ProcessPhase.unsent, phase] using placed
  case jobsClosed => rfl
  case done =>
    intro other member isDone
    exact absurd (done other member isDone).1 stillOpen
  case resultsClosed => exact fun closed => absurd (resultsClosed closed).1 stillOpen
  case succeeded => exact fun success => by cases success
  case notReporting => exact fun reporting => by cases reporting
  all_goals assumption

/-- A received result moves from the channel to the received ones. -/
theorem collects (accounted : pool.Accounted verifier disabledVerifiersBitmap batch workerCount)
    {result : Bool} {rest : List Bool} (phase : pool.phase = .receiving)
    (results : pool.results = result :: rest) :
    Accounted verifier disabledVerifiersBitmap batch workerCount
      { pool with
        results := rest
        phase := if result then .receiving else .returned false } := by
  obtain ⟨placed, answers, received, jobsClosed, done, spawned, resultsClosed, succeeded,
    notReporting⟩ := accounted
  obtain ⟨received, split, agrees⟩ := received
  rw [results] at split
  rw [phase] at jobsClosed spawned agrees
  have moved : pool.answered.map Prod.snd = (received ++ [result]) ++ rest := by
    rw [split, List.append_assoc, List.singleton_append]
  cases result with
  | true =>
      refine ⟨?_, answers, ⟨received ++ [true], moved, ?_⟩, jobsClosed, done, spawned,
        resultsClosed, (fun success => by cases success), (fun reporting => by cases reporting)⟩
      · simpa [items, inHand, ProcessPhase.unsent, phase] using placed
      · intro other member
        rcases List.mem_append.mp member with old | new
        · exact agrees other old
        · exact List.mem_singleton.mp new
  | false =>
      refine ⟨?_, answers, ⟨received ++ [false], moved, ?_⟩, jobsClosed, done, spawned,
        resultsClosed, (fun success => by cases success), (fun reporting => by cases reporting)⟩
      · simpa [items, inHand, ProcessPhase.unsent, phase] using placed
      · exact List.mem_append_right _ List.mem_cons_self

theorem move (accounted : pool.Accounted verifier disabledVerifiersBitmap batch workerCount)
    (move : Move verifier disabledVerifiersBitmap batch pool next) :
    next.Accounted verifier disabledVerifiersBitmap batch workerCount := by
  cases move with
  | reports phase => exact absurd phase accounted.notReporting
  | spawns phase => exact accounted.spawns phase
  | starts phase =>
      have stillOpen : ¬ pool.jobsClosed = true := accounted.of_phase phase rfl
      obtain ⟨placed, answers, received, jobsClosed, done, spawned, resultsClosed, succeeded,
        notReporting⟩ := accounted
      rw [phase] at received spawned jobsClosed
      refine ⟨?_, answers, received, jobsClosed, done, spawned, resultsClosed,
        (fun success => by cases success), (fun reporting => by cases reporting)⟩
      simpa [items, inHand, ProcessPhase.unsent, phase] using placed
  | sends phase => exact accounted.sends phase
  | closesJobs phase => exact accounted.closesJobs phase
  | receives phase results =>
      have collected := accounted.collects phase results
      simp only [if_true, ← phase] at collected
      exact collected
  | fails phase results => exact accounted.collects phase results
  | succeeds phase results closed =>
      obtain ⟨placed, answers, received, jobsClosed, done, spawned, resultsClosed, succeeded,
        notReporting⟩ := accounted
      rw [phase] at received spawned jobsClosed
      refine ⟨?_, answers, received, jobsClosed, done, spawned, resultsClosed,
        fun _ => ⟨closed, results⟩, (fun reporting => by cases reporting)⟩
      simpa [items, inHand, ProcessPhase.unsent, phase] using placed
  | takes worker jobs => exact accounted.takes worker jobs
  | finishes worker jobs closed => exact accounted.finishes worker jobs closed
  | panics =>
      obtain ⟨placed, answers, received, jobsClosed, done, spawned, resultsClosed, succeeded,
        notReporting⟩ := accounted
      exact ⟨placed, answers, received, jobsClosed, done, spawned, resultsClosed, succeeded,
        notReporting⟩
  | answers worker verified => exact accounted.answersItem worker verified
  | closesResults isClosed still allDone =>
      obtain ⟨placed, answers, received, jobsClosed, done, spawned, resultsClosed, succeeded,
        notReporting⟩ := accounted
      refine ⟨placed, answers, received, jobsClosed, done, spawned, fun _ => ⟨isClosed, allDone⟩,
        ?_, notReporting⟩
      intro success
      exact ⟨rfl, (succeeded success).2⟩

/-! ## No goroutine waits for ever -/

theorem length_eq (accounted : pool.Accounted verifier disabledVerifiersBitmap batch workerCount) :
    pool.answered.length + (pool.inHand.length +
      (pool.jobs.length + (pool.phase.unsent batch).length)) = batch.length := by
  have length := accounted.placed.length_eq
  simpa only [items, List.length_append, List.length_map] using length

theorem results_length_le
    (accounted : pool.Accounted verifier disabledVerifiersBitmap batch workerCount) :
    pool.results.length ≤ pool.answered.length := by
  obtain ⟨received, split, -⟩ := accounted.received
  have length := congrArg List.length split
  rw [List.length_map, List.length_append] at length
  omega

theorem room_for_result
    (accounted : pool.Accounted verifier disabledVerifiersBitmap batch workerCount)
    {index : Nat} {data : VerificationData}
    (worker : pool.workers[index]? = some (.verifying data)) :
    pool.results.length < batch.length := by
  have sent := accounted.results_length_le
  have length := accounted.length_eq
  have holds := (flatMap_of_slot worker Worker.inHand).length_eq
  simp only [Worker.inHand, List.length_append, List.length_singleton] at holds
  rw [inHand] at length
  omega

theorem hasSent_of_stuck
    (accounted : pool.Accounted verifier disabledVerifiersBitmap batch workerCount)
    (stuck : pool.processStep batch = none) : pool.phase.hasSent = true := by
  unfold processStep at stuck
  cases phase : pool.phase with
  | reporting => exact absurd phase accounted.notReporting
  | spawning left => cases left <;> simp [phase] at stuck
  | sending rest =>
      cases rest with
      | nil => simp [phase] at stuck
      | cons data rest =>
          have length := accounted.length_eq
          simp only [phase, ProcessPhase.unsent, List.length_cons] at length
          have room : pool.jobs.length < batch.length := by omega
          simp [phase, room] at stuck
  | receiving => rfl
  | returned => rfl

theorem done_of_stuck
    (accounted : pool.Accounted verifier disabledVerifiersBitmap batch workerCount)
    (closed : pool.jobsClosed = true)
    (stuck : ∀ index, pool.workerStep verifier disabledVerifiersBitmap batch index = none) :
    ∀ worker ∈ pool.workers, worker = .done := by
  intro worker member
  obtain ⟨index, found⟩ := List.mem_iff_getElem?.mp member
  have noStep := stuck index
  unfold workerStep at noStep
  rw [found] at noStep
  cases worker with
  | ranging =>
      cases jobs : pool.jobs with
      | nil => simp [jobs, closed] at noStep
      | cons => simp [jobs] at noStep
  | verifying data =>
      have room := accounted.room_for_result found
      cases verified : verifyItem verifier disabledVerifiersBitmap data with
      | none => simp [verified] at noStep
      | some => simp [verified, room] at noStep
  | done => rfl

/-- Where no goroutine can move, the function has returned and every worker
has left. -/
theorem finished_of_stuck
    (accounted : pool.Accounted verifier disabledVerifiersBitmap batch workerCount)
    (running : pool.panicked = false)
    (stuck : ∀ goroutine, step verifier disabledVerifiersBitmap batch pool goroutine = none) :
    (∃ succeeded, pool.phase = .returned succeeded) ∧
      ∀ worker ∈ pool.workers, worker = .done := by
  have noProcess : pool.processStep batch = none := by
    simpa [step, running] using stuck .process
  have noWorker : ∀ index,
      pool.workerStep verifier disabledVerifiersBitmap batch index = none := by
    intro index
    simpa [step, running] using stuck (.worker index)
  have noCloser : pool.closerStep = none := by
    simpa [step, running] using stuck .closer
  have hasSent := accounted.hasSent_of_stuck noProcess
  have closed : pool.jobsClosed = true := accounted.jobsClosed.trans hasSent
  have allDone := accounted.done_of_stuck closed noWorker
  refine ⟨?_, allDone⟩
  have resultsClosed : pool.resultsClosed = true := by
    unfold closerStep at noCloser
    by_contra still
    rw [if_pos ⟨closed, still, allDone⟩] at noCloser
    cases noCloser
  cases phase : pool.phase with
  | returned succeeded => exact ⟨succeeded, rfl⟩
  | receiving =>
      unfold processStep at noProcess
      cases results : pool.results with
      | nil => simp [phase, results, resultsClosed] at noProcess
      | cons result => cases result <;> simp [phase, results] at noProcess
  | reporting | spawning | sending =>
      rw [phase] at hasSent
      cases hasSent

/-- When every worker has left, every item has its one answer. -/
theorem all_answered
    (accounted : pool.Accounted verifier disabledVerifiersBitmap batch workerCount)
    (positive : 0 < workerCount) (hasSent : pool.phase.hasSent = true)
    (allDone : ∀ worker ∈ pool.workers, worker = .done) :
    (pool.answered.map Prod.fst).Perm batch := by
  have noSpawn : pool.phase.toSpawn = 0 := by
    cases phase : pool.phase with
    | spawning =>
        rw [phase] at hasSent
        cases hasSent
    | reporting | sending | receiving | returned => rfl
  have nothingUnsent : pool.phase.unsent batch = [] := by
    cases phase : pool.phase with
    | spawning | sending =>
        rw [phase] at hasSent
        cases hasSent
    | reporting | receiving | returned => rfl
  have nobody : pool.inHand = [] := by
    rw [inHand, List.flatMap_eq_nil_iff]
    intro worker member
    rw [allDone worker member]
    rfl
  have someone : pool.workers ≠ [] := by
    intro empty
    have spawned := accounted.spawned
    rw [empty, noSpawn] at spawned
    exact absurd spawned (Nat.ne_of_lt positive)
  obtain ⟨worker, member⟩ := List.exists_mem_of_ne_nil _ someone
  have noJobs := (accounted.done worker member (allDone worker member)).2
  have placed := accounted.placed
  simpa only [items, nobody, noJobs, nothingUnsent, List.append_nil] using placed

/-- The function returns nil exactly when every item was verified. -/
theorem returned_iff
    (accounted : pool.Accounted verifier disabledVerifiersBitmap batch workerCount)
    (positive : 0 < workerCount) {succeeded : Bool} (phase : pool.phase = .returned succeeded) :
    succeeded = true ↔
      ∀ data ∈ batch, verify verifier disabledVerifiersBitmap data = true := by
  obtain ⟨received, split, agrees⟩ := accounted.received
  rw [phase] at agrees
  cases succeeded with
  | true =>
      simp only [true_iff]
      obtain ⟨closed, empty⟩ := accounted.succeeded phase
      have hasSent : pool.phase.hasSent = true := by rw [phase]; rfl
      have answered := accounted.all_answered positive hasSent (accounted.resultsClosed closed).2
      intro data member
      obtain ⟨answer, answerMember, rfl⟩ := List.mem_map.mp (answered.mem_iff.mpr member)
      have isResult : answer.2 ∈ received := by
        rw [empty, List.append_nil] at split
        rw [← split]
        exact List.mem_map_of_mem answerMember
      rw [← agrees answer.2 isResult]
      exact (verifyItem_eq (accounted.answers answer answerMember)).symm
  | false =>
      simp only [Bool.false_eq_true, false_iff, not_forall]
      have isResult : false ∈ pool.answered.map Prod.snd := by
        rw [split]
        exact List.mem_append_left _ agrees
      obtain ⟨answer, answerMember, isFalse⟩ := List.mem_map.mp isResult
      have member : answer.1 ∈ batch := by
        apply accounted.placed.subset
        exact List.mem_append_left _ (List.mem_map_of_mem answerMember)
      refine ⟨answer.1, member, ?_⟩
      rw [← verifyItem_eq (accounted.answers answer answerMember), isFalse]
      exact Bool.false_ne_true

end Accounted

theorem maxWorkers_pos (numCPU : Nat) : 0 < maxWorkers numCPU := by
  rw [maxWorkers]
  split <;> omega

theorem accounted_start (numCPU : Nat) (batch : List VerificationData)
    (verifier : VerifierCall → Bool) (disabledVerifiersBitmap : Nat) :
    (start numCPU (some batch) (some disabledVerifiersBitmap)).Accounted verifier
      disabledVerifiersBitmap batch (maxWorkers numCPU) where
  placed := List.Perm.refl _
  answers _ member := by cases member
  received := ⟨[], rfl, fun _ member => by cases member⟩
  jobsClosed := rfl
  done _ member := by cases member
  spawned := Nat.zero_add _
  resultsClosed closed := by cases closed
  succeeded success := by cases success
  notReporting reporting := by cases reporting

theorem accounted_run {numCPU : Nat} {schedule : List Goroutine}
    (ran : (machine verifier disabledVerifiersBitmap batch).run
      (start numCPU (some batch) (some disabledVerifiersBitmap)) schedule = some pool) :
    pool.Accounted verifier disabledVerifiersBitmap batch (maxWorkers numCPU) :=
  Machine.run_invariant (fun accounted stepped => accounted.move (step_move stepped))
    (accounted_start numCPU batch verifier disabledVerifiersBitmap) ran

/-- Without a batch no goroutine is started. -/
theorem run_of_no_batch {numCPU : Nat} {disabledVerifiers : Option Nat}
    {schedule : List Goroutine}
    (ran : (machine verifier disabledVerifiersBitmap []).run (start numCPU none disabledVerifiers)
      schedule = some pool) :
    schedule = [] ∧ pool = start numCPU none disabledVerifiers := by
  cases schedule with
  | nil =>
      cases ran
      exact ⟨rfl, rfl⟩
  | cons goroutine schedule =>
      obtain ⟨next, stepped, -⟩ := Option.bind_eq_some_iff.mp ran
      cases goroutine with
      | process | worker | closer => cases stepped

/-- `ProvingSystemId.String` has a name for every disabled system of the batch. -/
def DisabledNamed (disabledVerifiersBitmap : Nat) (batch : List VerificationData) : Prop :=
  ∀ data ∈ batch, isVerifierDisabled disabledVerifiersBitmap data.provingSystemId = true →
    data.provingSystemId.toNat < 4

theorem Move.running {workerCount : Nat}
    (accounted : pool.Accounted verifier disabledVerifiersBitmap batch workerCount)
    (named : DisabledNamed disabledVerifiersBitmap batch) (running : pool.panicked = false)
    (move : Move verifier disabledVerifiersBitmap batch pool next) : next.panicked = false := by
  cases move with
  | panics worker noName =>
      obtain ⟨disabled, unnamed⟩ := verifyItem_eq_none_iff.mp noName
      have held := (flatMap_of_slot worker Worker.inHand).symm.subset
        (List.mem_append_left _ List.mem_cons_self)
      have member := accounted.placed.subset
        (List.mem_append_right _ (List.mem_append_left _ held))
      have known := named _ member disabled
      omega
  | reports | spawns | starts | sends | closesJobs | receives | fails | succeeds | takes
  | finishes | answers | closesResults => exact running

theorem running_run {numCPU : Nat} {schedule : List Goroutine}
    (named : DisabledNamed disabledVerifiersBitmap batch)
    (ran : (machine verifier disabledVerifiersBitmap batch).run
      (start numCPU (some batch) (some disabledVerifiersBitmap)) schedule = some pool) :
    pool.panicked = false := by
  have preserved : ∀ {pool next : WorkerPool} {goroutine : Goroutine},
      pool.Accounted verifier disabledVerifiersBitmap batch (maxWorkers numCPU) ∧
          pool.panicked = false →
        (machine verifier disabledVerifiersBitmap batch).step pool goroutine = some next →
          next.Accounted verifier disabledVerifiersBitmap batch (maxWorkers numCPU) ∧
            next.panicked = false := by
    intro pool next goroutine holds stepped
    exact ⟨holds.1.move (step_move stepped), (step_move stepped).running holds.1 named holds.2⟩
  exact (Machine.run_invariant preserved
    ⟨accounted_start numCPU batch verifier disabledVerifiersBitmap, rfl⟩ ran).2

/-- What holds of a state to which a schedule of the goroutines has led. -/
structure Expected (verifier : VerifierCall → Bool) (disabledVerifiersBitmap numCPU : Nat)
    (downloaded : Option (List VerificationData)) (schedule : List Goroutine)
    (pool : WorkerPool) : Prop where
  noPanic : pool.panicked = false
  /-- Every item is waiting, with a worker, or answered, and at one place only. -/
  placed : (pool.items (downloaded.getD [])).Perm (downloaded.getD [])
  answers : ∀ answer ∈ pool.answered,
    answer.2 = verify verifier disabledVerifiersBitmap answer.1
  /-- No schedule goes on for ever. -/
  bounded : schedule.length ≤
    (start numCPU downloaded (some disabledVerifiersBitmap)).workLeft (downloaded.getD [])
  /-- Where no goroutine can move, all is done. -/
  ends : (∀ goroutine, step verifier disabledVerifiersBitmap (downloaded.getD []) pool goroutine =
      none) →
    (∃ succeeded, pool.phase = .returned succeeded) ∧
      (∀ worker ∈ pool.workers, worker = .done) ∧
      (pool.answered.map Prod.fst).Perm (downloaded.getD [])
  signs : ∀ succeeded, pool.phase = .returned succeeded →
    (succeeded = true ↔ ∃ batch, downloaded = some batch ∧
      ∀ data ∈ batch, verify verifier disabledVerifiersBitmap data = true)

/-- Every schedule leads to expected states only. -/
def SignsOnlyVerified (verifier : VerifierCall → Bool) (disabledVerifiersBitmap numCPU : Nat)
    (downloaded : Option (List VerificationData)) : Prop :=
  ∀ schedule pool,
    (machine verifier disabledVerifiersBitmap (downloaded.getD [])).run
      (start numCPU downloaded (some disabledVerifiersBitmap)) schedule = some pool →
    pool.Expected verifier disabledVerifiersBitmap numCPU downloaded schedule

theorem signsOnlyVerified_none (verifier : VerifierCall → Bool)
    (disabledVerifiersBitmap numCPU : Nat) :
    SignsOnlyVerified verifier disabledVerifiersBitmap numCPU none := by
  intro schedule pool ran
  obtain ⟨rfl, rfl⟩ := run_of_no_batch ran
  constructor
  case noPanic => rfl
  case placed => exact List.Perm.refl _
  case answers => exact fun _ member => by cases member
  case bounded => exact Nat.zero_le _
  case ends =>
    intro _
    exact ⟨⟨false, rfl⟩, (fun _ member => by cases member), List.Perm.refl _⟩
  case signs =>
    intro succeeded phase
    cases phase
    simp

theorem signsOnlyVerified_some_iff (verifier : VerifierCall → Bool)
    (disabledVerifiersBitmap numCPU : Nat) (batch : List VerificationData) :
    SignsOnlyVerified verifier disabledVerifiersBitmap numCPU (some batch) ↔
      DisabledNamed disabledVerifiersBitmap batch := by
  have positive := maxWorkers_pos numCPU
  constructor
  · intro expected data member disabled
    by_contra unnamed
    -- Some schedule ends, and then the item would have an answer.
    have lowers : (machine verifier disabledVerifiersBitmap batch).Lowers (workLeft batch) :=
      lowers_workLeft
    obtain ⟨schedule, pool, ran, stuck⟩ := lowers.exists_maximal
      (start numCPU (some batch) (some disabledVerifiersBitmap))
    obtain ⟨-, -, answered⟩ := (expected schedule pool ran).ends stuck
    obtain ⟨answer, answerMember, rfl⟩ := List.mem_map.mp (answered.mem_iff.mpr member)
    have result := (accounted_run ran).answers answer answerMember
    rw [verifyItem_eq_none_iff.mpr ⟨disabled, Nat.le_of_not_lt unnamed⟩] at result
    cases result
  · intro named schedule pool ran
    have accounted := accounted_run ran
    have running := running_run named ran
    constructor
    case noPanic => exact running
    case placed => exact accounted.placed
    case answers =>
      intro answer member
      exact verifyItem_eq (accounted.answers answer member)
    case bounded => exact Nat.le_of_add_right_le (lowers_workLeft.length_le ran)
    case ends =>
      intro stuck
      obtain ⟨returned, allDone⟩ := accounted.finished_of_stuck running stuck
      refine ⟨returned, allDone, accounted.all_answered positive ?_ allDone⟩
      obtain ⟨succeeded, phase⟩ := returned
      rw [phase]
      rfl
    case signs =>
      intro succeeded phase
      rw [accounted.returned_iff positive phase]
      simp

end WorkerPool

open WorkerPool

/-- A downloaded batch has passed the Merkle check. -/
theorem merkleCheck_of_downloaded {formats : Formats} {keccak : Bytes → Bytes32}
    {crate : MerkleTreeCrate VerificationDataCommitment Bytes32} {answers : List (Option Bytes)}
    {expectedMerkleRoot : Bytes32} {batch : List VerificationData}
    (downloaded : getBatchFromDataServiceWithMultipleURLs formats keccak crate answers
      expectedMerkleRoot = some batch) :
    ∃ batchBytes, some batchBytes ∈ answers ∧
      innerVerifyMerkleTreeBatchFfi formats keccak crate batchBytes expectedMerkleRoot = true := by
  obtain ⟨answer, member, read⟩ := List.exists_of_findSome?_eq_some downloaded
  obtain ⟨batchBytes, rfl, read⟩ := Option.bind_eq_some_iff.mp read
  refine ⟨batchBytes, member, ?_⟩
  change getBatchFromDataService formats keccak crate batchBytes expectedMerkleRoot = some batch
    at read
  rw [getBatchFromDataService] at read
  split at read
  case isTrue checked => exact checked
  case isFalse => cases read

/-- Every schedule verifies every item once, and the function succeeds exactly
on verified batches, as long as every disabled system of the batch has a name. -/
theorem signsOnlyVerified_iff (formats : Formats) (keccak : Bytes → Bytes32)
    (crate : MerkleTreeCrate VerificationDataCommitment Bytes32) (answers : List (Option Bytes))
    (expectedMerkleRoot : Bytes32) (verifier : VerifierCall → Bool)
    (disabledVerifiersBitmap numCPU : Nat) :
    let downloaded := getBatchFromDataServiceWithMultipleURLs formats keccak crate answers
      expectedMerkleRoot
    (SignsOnlyVerified verifier disabledVerifiersBitmap numCPU downloaded ∧
        ∀ batch, downloaded = some batch → ∃ batchBytes, some batchBytes ∈ answers ∧
          innerVerifyMerkleTreeBatchFfi formats keccak crate batchBytes expectedMerkleRoot =
            true) ↔
      ∀ batch, downloaded = some batch → DisabledNamed disabledVerifiersBitmap batch := by
  intro downloaded
  have checked : ∀ batch, downloaded = some batch → ∃ batchBytes, some batchBytes ∈ answers ∧
      innerVerifyMerkleTreeBatchFfi formats keccak crate batchBytes expectedMerkleRoot = true :=
    fun batch found => merkleCheck_of_downloaded found
  have signs : SignsOnlyVerified verifier disabledVerifiersBitmap numCPU downloaded ↔
      ∀ batch, downloaded = some batch → DisabledNamed disabledVerifiersBitmap batch := by
    cases downloaded with
    | none =>
        have holds := signsOnlyVerified_none verifier disabledVerifiersBitmap numCPU
        simp [holds]
    | some batch =>
        rw [signsOnlyVerified_some_iff]
        simp
  rw [signs]
  exact ⟨And.left, fun named => ⟨named, checked⟩⟩

/-- A CBOR batch of one RISC Zero proof. -/
def risc0Batch : Bytes :=
  [0x81, 0xA3] ++ DefiniteCbor.text "proving_system" ++ DefiniteCbor.text "Risc0" ++
    DefiniteCbor.text "proof" ++ [0x41, 7] ++ DefiniteCbor.text "proof_generator_addr" ++
    DefiniteCbor.text "0x0000000000000000000000000000000000000001"

/-- Once RISC Zero is disabled, its proof passes the Merkle check and then
makes the only worker panic. -/
theorem disabled_risc0_panics :
    getBatchFromDataServiceWithMultipleURLs DefiniteCbor.formats Keccak256.keccak256
        (.reference (VerificationCommitmentBatch.hashData Keccak256.keccak256)
          (VerificationCommitmentBatch.hashNewParent Keccak256.keccak256))
        [some risc0Batch]
        (VerificationData.leafHash Keccak256.keccak256 ⟨.risc0, [7], none, none, none, 1⟩) =
      some [⟨4, [7], [], [], []⟩] ∧
    isVerifierDisabled 16 4 = true ∧
    ((machine (fun _ => true) 16 [⟨4, [7], [], [], []⟩]).run
        (start 1 (some [⟨4, [7], [], [], []⟩]) (some 16))
        [.process, .process, .process, .worker 0, .worker 0]).map WorkerPool.panicked =
      some true := by
  have decoded : decodedBatch DefiniteCbor.formats risc0Batch =
      some [⟨.risc0, [7], none, none, none, 1⟩] := by decide +kernel
  have verified := verified_single Keccak256.keccak256 (by decide) decoded
  refine ⟨?_, by decide, by decide⟩
  have read : getBatchFromDataService DefiniteCbor.formats Keccak256.keccak256
      (.reference (VerificationCommitmentBatch.hashData Keccak256.keccak256)
        (VerificationCommitmentBatch.hashNewParent Keccak256.keccak256)) risc0Batch
      (VerificationData.leafHash Keccak256.keccak256 ⟨.risc0, [7], none, none, none, 1⟩) =
        some [⟨4, [7], [], [], []⟩] := by
    rw [getBatchFromDataService, if_pos verified]
    decide +kernel
  simp only [getBatchFromDataServiceWithMultipleURLs, List.findSome?_cons, bind, Option.bind_some,
    read]

end AlignedLayer.Operator
