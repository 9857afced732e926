import AlignedLayer.Aggregator.Tasks

/-!
# The last processed batch

The operator handles batches in parallel and stores the highest block of which
it has processed a batch in a file.  After a restart it asks for the batches
without a response from a little before that block on.  A process can end at
any time, with batches in work.
-/

namespace AlignedLayer.Operator

/-- A `NewBatchV3` event. -/
structure NewBatchLog where
  blockNumber : Nat
  batchMerkleRoot : Bytes32
  senderAddress : Address
  batchDataPointer : String
  deriving DecidableEq

def unverifiedBatchOffset : Nat := 100

/-- How many values a `uint32` has. -/
def blockNumberLimit : Nat := 2 ^ 32

/-- What `lastProcessedBatchLogFile` contains. -/
inductive LogFile where
  | missing
  /-- No JSON object, after a write that was cut short. -/
  | torn
  | holds (blockNumber : Nat)
  deriving DecidableEq

/-- What becomes of `os.WriteFile`. -/
inductive Write where
  | written
  | notOpened
  /-- An error or the end of the process after the file was emptied. -/
  | cutShort
  deriving DecidableEq

/-- Where `ProcessMissedBatchesWhileOffline` stands. -/
inductive MissedBatches where
  | entering
  | asking (fromBlock : Nat)
  | returned
  deriving DecidableEq

/-- A running operator. -/
structure Process where
  lastProcessedBatch : Nat
  /-- The goroutines in `handleNewBatchLogV3`. -/
  handling : List NewBatchLog
  /-- The goroutines that send on `batchProcessedChan`. -/
  sending : List NewBatchLog
  missedBatches : MissedBatches

/-- The operator over all its starts, and the chain. -/
structure Restarts where
  /-- Every event so far. -/
  logs : List NewBatchLog
  blockNumber : Nat
  responded : Bytes32 → Bool
  file : LogFile
  process : Option Process
  /-- History: the batches whose handling came to its end. -/
  finished : List NewBatchLog
  /-- History: those of them that verified. -/
  verified : List NewBatchLog

/-- `LoadLastProcessedBatch` in a new process; `none` is the `Fatalf`. -/
def loadLastProcessedBatch : LogFile → Option Nat
  | .missing => some 0
  | .torn => none
  | .holds blockNumber => some blockNumber

def newOperatorFromConfig (file : LogFile) : Option Process :=
  (loadLastProcessedBatch file).map fun lastProcessedBatch =>
    { lastProcessedBatch := lastProcessedBatch
      handling := []
      sending := []
      missedBatches := .entering }

/-- The state after `UpdateLastProcessBatch` in a process. -/
def updateLastProcessBatch (blockNumber : Nat) (write : Write) (process : Process)
    (file : LogFile) : Process × LogFile :=
  if blockNumber < process.lastProcessedBatch then
    (process, file)
  else
    ({ process with lastProcessedBatch := blockNumber },
      match write with
      | .written => .holds blockNumber
      | .notOpened => file
      | .cutShort => .torn)

/-- The first block of which missed batches are asked for; `none` is the return
of an operator that has not processed a batch yet. -/
def missedFromBlock (lastProcessedBatch : Nat) : Option Nat :=
  if lastProcessedBatch = 0 then none
  else if lastProcessedBatch < unverifiedBatchOffset then some 0
  else some (lastProcessedBatch - unverifiedBatchOffset)

namespace Restarts

def new : Restarts where
  logs := []
  blockNumber := 0
  responded _ := false
  file := .missing
  process := none
  finished := []
  verified := []

inductive Label where
  /-- An event, in the order of the chain. -/
  | newBatch (log : NewBatchLog)
  | respond (identifierHash : Bytes32)
  | start
  /-- The process ends, for whatever reason. -/
  | stop
  /-- An event reaches the operator. -/
  | receive (position : Nat)
  /-- `handleNewBatchLogV3` returns. -/
  | handled (position : Nat) (succeeded : Bool)
  | batchProcessed (position : Nat) (write : Write)
  | askMissed
  | answerMissed (answered : Bool)

section

variable (keccak : Bytes → Bytes32)

/-- `GetNotRespondedTasksFrom`. -/
def getNotRespondedTasksFrom (fromBlock : Nat) (restarts : Restarts) : List NewBatchLog :=
  restarts.logs.filter fun log =>
    fromBlock ≤ log.blockNumber &&
      !restarts.responded
        (Aggregator.batchIdentifierHash keccak log.batchMerkleRoot log.senderAddress)

/-- A step of the running operator. -/
def processStep (restarts : Restarts) (process : Process) : Label → Option Restarts
  | .receive position =>
      restarts.logs[position]?.map fun log =>
        { restarts with process := some { process with handling := process.handling ++ [log] } }
  | .handled position succeeded =>
      process.handling[position]?.map fun log =>
        { restarts with
          finished := restarts.finished ++ [log]
          verified := if succeeded then restarts.verified ++ [log] else restarts.verified
          process := some { process with
            handling := process.handling.eraseIdx position
            sending := if succeeded then process.sending ++ [log] else process.sending } }
  | .batchProcessed position write =>
      process.sending[position]?.map fun log =>
        let (process, file) := updateLastProcessBatch (log.blockNumber % blockNumberLimit) write
          { process with sending := process.sending.eraseIdx position } restarts.file
        { restarts with file := file, process := some process }
  | .askMissed =>
      if process.missedBatches = .entering then
        some { restarts with
          process := some { process with
            missedBatches :=
              match missedFromBlock process.lastProcessedBatch with
              | none => .returned
              | some fromBlock => .asking fromBlock } }
      else
        none
  | .answerMissed answered =>
      match process.missedBatches with
      | .asking fromBlock =>
          some { restarts with
            process := some { process with
              handling :=
                if answered then
                  process.handling ++ restarts.getNotRespondedTasksFrom keccak fromBlock
                else process.handling
              missedBatches := .returned } }
      | _ => none
  | _ => none

def step (restarts : Restarts) : Label → Option Restarts
  | .newBatch log =>
      -- The blocks are numbered from 1, and the contract keeps a `uint32` of them.
      if restarts.blockNumber ≤ log.blockNumber ∧ 0 < log.blockNumber ∧
          log.blockNumber < blockNumberLimit then
        some { restarts with
          logs := restarts.logs ++ [log]
          blockNumber := log.blockNumber }
      else
        none
  | .respond identifierHash =>
      some { restarts with
        responded := Function.update restarts.responded identifierHash true }
  | .start =>
      if restarts.process.isSome then
        none
      else
        (newOperatorFromConfig restarts.file).map fun process =>
          { restarts with process := some process }
  | .stop => restarts.process.map fun _ => { restarts with process := none }
  | label => restarts.process.bind fun process => restarts.processStep keccak process label

def machine : Machine Restarts Label where
  step := step keccak

end

end Restarts

end AlignedLayer.Operator
