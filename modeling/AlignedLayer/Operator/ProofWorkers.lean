import AlignedLayer.Library.Machine
import AlignedLayer.Operator.Download

/-!
# The workers that verify a batch

`ProcessNewBatchLogV3` starts workers, fills the channel of jobs and collects
the results through a second channel; both have room for the whole batch.
Every goroutine moves on its own, one channel operation at a time.  A panic in
a worker ends the process.
-/

namespace AlignedLayer.Operator

/-- The first answer of the data service that passes the Merkle check; a URL
that does not answer is `none`. -/
def getBatchFromDataServiceWithMultipleURLs (formats : Formats)
    (keccak : Bytes → Bytes32) (crate : MerkleTreeCrate VerificationDataCommitment Bytes32)
    (answers : List (Option Bytes)) (expectedMerkleRoot : Bytes32) :
    Option (List VerificationData) :=
  answers.findSome? fun answer => do
    getBatchFromDataService formats keccak crate (← answer) expectedMerkleRoot

/-- `ProvingSystemId.String` indexes an array of four names, and panics behind
its end. -/
def provingSystemIdString (provingSystemId : UInt16) : Option String :=
  ["GnarkPlonkBls12_381", "GnarkPlonkBn254", "GnarkGroth16Bn254", "SP1"][provingSystemId.toNat]?

/-- `runtime.NumCPU() - 1`, but at least one. -/
def maxWorkers (numCPU : Nat) : Nat :=
  if numCPU - 1 < 1 then 1 else numCPU - 1

inductive Worker where
  /-- At the head of `for data := range jobs`. -/
  | ranging
  | verifying (data : VerificationData)
  | done
  deriving DecidableEq

/-- What the function itself does next. -/
inductive ProcessPhase where
  /-- It sends `false` because the bitmap could not be read. -/
  | reporting
  | spawning (left : Nat)
  | sending (rest : List VerificationData)
  | receiving
  | returned (succeeded : Bool)
  deriving DecidableEq

structure WorkerPool where
  phase : ProcessPhase
  workers : List Worker
  jobs : List VerificationData
  jobsClosed : Bool
  results : List Bool
  resultsClosed : Bool
  /-- The items with the results sent for them, in the order of sending. -/
  answered : List (VerificationData × Bool)
  panicked : Bool
  deriving DecidableEq

inductive Goroutine where
  | process
  | worker (index : Nat)
  /-- It waits for the workers and closes `results`. -/
  | closer
  deriving DecidableEq

namespace WorkerPool

def start (numCPU : Nat) (downloaded : Option (List VerificationData))
    (disabledVerifiers : Option Nat) : WorkerPool where
  phase :=
    match downloaded, disabledVerifiers with
    | none, _ => .returned false
    | some _, none => .reporting
    | some _, some _ => .spawning (maxWorkers numCPU)
  workers := []
  jobs := []
  jobsClosed := false
  results := []
  resultsClosed := false
  answered := []
  panicked := false

section

variable (verifier : VerifierCall → Bool) (disabledVerifiersBitmap : Nat)
  (batch : List VerificationData)

/-- `Operator.verify`: the result it sends, none when it panics. -/
def verifyItem (data : VerificationData) : Option Bool :=
  if isVerifierDisabled disabledVerifiersBitmap data.provingSystemId then
    -- The log line formats the name before `false` is sent.
    (provingSystemIdString data.provingSystemId).map fun _ => false
  else
    match verifierCall data with
    | some call => some (verifier call)
    | none => some false

def processStep (pool : WorkerPool) : Option WorkerPool :=
  match pool.phase with
  | .reporting =>
      if pool.results.length < batch.length then
        some { pool with results := pool.results ++ [false], phase := .returned false }
      else none
  | .spawning (left + 1) =>
      some { pool with workers := pool.workers ++ [.ranging], phase := .spawning left }
  | .spawning 0 => some { pool with phase := .sending batch }
  | .sending (data :: rest) =>
      if pool.jobs.length < batch.length then
        some { pool with jobs := pool.jobs ++ [data], phase := .sending rest }
      else none
  -- `close(jobs)`, and the start of the closer.
  | .sending [] => some { pool with jobsClosed := true, phase := .receiving }
  | .receiving =>
      match pool.results with
      | true :: rest => some { pool with results := rest }
      | false :: rest => some { pool with results := rest, phase := .returned false }
      | [] => if pool.resultsClosed then some { pool with phase := .returned true } else none
  | .returned _ => none

def workerStep (index : Nat) (pool : WorkerPool) : Option WorkerPool :=
  match pool.workers[index]? with
  | some .ranging =>
      match pool.jobs with
      | data :: rest =>
          some { pool with jobs := rest, workers := pool.workers.set index (.verifying data) }
      | [] =>
          if pool.jobsClosed then some { pool with workers := pool.workers.set index .done }
          else none
  | some (.verifying data) =>
      match verifyItem verifier disabledVerifiersBitmap data with
      | none => some { pool with panicked := true }
      | some result =>
          if pool.results.length < batch.length then
            some { pool with
              results := pool.results ++ [result]
              answered := pool.answered ++ [(data, result)]
              workers := pool.workers.set index .ranging }
          else none
  | some .done | none => none

def closerStep (pool : WorkerPool) : Option WorkerPool :=
  if pool.jobsClosed ∧ ¬ pool.resultsClosed ∧ ∀ worker ∈ pool.workers, worker = .done then
    some { pool with resultsClosed := true }
  else none

def step (pool : WorkerPool) (goroutine : Goroutine) : Option WorkerPool :=
  if pool.panicked then none
  else
    match goroutine with
    | .process => pool.processStep batch
    | .worker index => pool.workerStep verifier disabledVerifiersBitmap batch index
    | .closer => pool.closerStep

/-- Every schedule of the goroutines is a run. -/
def machine : Machine WorkerPool Goroutine where
  step := step verifier disabledVerifiersBitmap batch

end

end WorkerPool

end AlignedLayer.Operator
