import AlignedLayer.Aggregator.Tasks

/-!
# From the operators to the contract

Operators send signatures over identifier hashes; the BLS aggregation service
knows tasks by their index.  `ProcessOperatorSignedTaskResponseV2` translates
one into the other, and `handleBlsAggServiceResponse` translates back when a
quorum is reached.  Both look into the maps that new batches and the collector
change.
-/

namespace AlignedLayer.Aggregator

structure SignedTaskResponse where
  batchIdentifierHash : Bytes32
  batchMerkleRoot : Bytes32
  senderAddress : Address
  /-- `none` is a nil point. -/
  blsSignature : Option Bytes
  operatorId : Bytes32
  deriving DecidableEq

/-- What `ProcessNewSignature` is called with. -/
structure TaskSignature where
  taskIndex : Nat
  taskResponse : Bytes32
  blsSignature : Bytes
  operatorId : Bytes32
  deriving DecidableEq

/-- A call of `ProcessOperatorSignedTaskResponseV2`. -/
structure Call where
  response : SignedTaskResponse
  blsSignature : Bytes
  /-- The lookups that did not find the task. -/
  failures : Nat
  taskIndex : Option Nat
  /-- The goroutine has called the BLS service. -/
  processed : Bool
  reply : Option Nat
  deriving DecidableEq

def Call.new (response : SignedTaskResponse) (blsSignature : Bytes) : Call where
  response := response
  blsSignature := blsSignature
  failures := 0
  taskIndex := none
  processed := false
  reply := none

structure BlsAggregationServiceResponse where
  err : Option String
  taskIndex : Nat
  taskResponse : Bytes32
  /-- The signatures that are aggregated. -/
  signatures : List TaskSignature
  deriving DecidableEq

/-- The arguments of `SendAggregatedResponse`. -/
structure AggregatedResponse where
  taskIndex : Nat
  batchIdentifierHash : Bytes32
  batchMerkleRoot : Bytes32
  senderAddress : Address
  signatures : List TaskSignature
  deriving DecidableEq

structure Server where
  aggregator : Aggregator
  calls : List Call
  /-- History: what the BLS service was called with. -/
  signatures : List TaskSignature
  /-- History: what was sent to the contract. -/
  sent : List AggregatedResponse

/-- `retry.NetworkNumRetries`. -/
def networkNumRetries : Nat := 3

/-- An attempt of `GetTaskIndexRetryable`. -/
def Call.getTaskIndex (aggregator : Aggregator) (call : Call) : Call :=
  match aggregator.batchesIdxByIdentifierHash call.response.batchIdentifierHash with
  | some taskIndex => { call with taskIndex := some taskIndex }
  | none =>
      if call.failures < networkNumRetries then { call with failures := call.failures + 1 }
      else { call with failures := call.failures + 1, reply := some 1 }

/-- `handleBlsAggServiceResponse` up to the send; a missing key reads as zero. -/
def handleBlsAggServiceResponse (response : BlsAggregationServiceResponse)
    (aggregator : Aggregator) : List AggregatedResponse :=
  let batchIdentifierHash :=
    (aggregator.batchesIdentifierHashByIdx response.taskIndex).getD Bytes32.zero
  let batchData :=
    (aggregator.batchDataByIdentifierHash batchIdentifierHash).getD ⟨Bytes32.zero, 0⟩
  if response.err.isSome then []
  else
    [{ taskIndex := response.taskIndex
       batchIdentifierHash := batchIdentifierHash
       batchMerkleRoot := batchData.batchMerkleRoot
       senderAddress := batchData.senderAddress
       signatures := response.signatures }]

/-- The BLS service answers for a task with a quorum of the signatures it was
called with, all of them for this task and over one digest. -/
def BlsAggregationServiceResponse.fromSignatures (signatures : List TaskSignature)
    (response : BlsAggregationServiceResponse) : Bool :=
  response.err.isSome ||
    !response.signatures.isEmpty && response.signatures.all fun signature =>
      signatures.contains signature && signature.taskIndex == response.taskIndex &&
        signature.taskResponse == response.taskResponse

namespace Server

def new : Server where
  aggregator := Aggregator.new
  calls := []
  signatures := []
  sent := []

inductive Label where
  /-- A new batch or a step of the collector. -/
  | tasks (label : Aggregator.Label)
  | signedTaskResponse (response : SignedTaskResponse)
  | getTaskIndex (position : Nat)
  | processNewSignature (position : Nat)
  /-- The BLS service returns in time. -/
  | blsResult (position : Nat) (accepted : Bool)
  | timeout (position : Nat)
  | blsResponse (response : BlsAggregationServiceResponse)

def step (keccak : Bytes → Bytes32) (server : Server) : Label → Option Server
  | .tasks label =>
      (Aggregator.step keccak server.aggregator label).map fun aggregator =>
        { server with aggregator := aggregator }
  | .signedTaskResponse response =>
      match response.blsSignature with
      -- Refused with an error.
      | none => some server
      | some blsSignature =>
          some { server with calls := server.calls ++ [.new response blsSignature] }
  | .getTaskIndex position =>
      server.calls[position]?.bind fun call =>
        if call.taskIndex.isSome ∨ call.reply.isSome ∨ server.aggregator.collector.holdsLock ∨
            server.aggregator.exited then none
        else
          some { server with
            calls := server.calls.set position (call.getTaskIndex server.aggregator) }
  | .processNewSignature position =>
      server.calls[position]?.bind fun call =>
        call.taskIndex.bind fun taskIndex =>
          if call.processed then none
          else
            some { server with
              calls := server.calls.set position { call with processed := true }
              signatures := server.signatures ++
                [{ taskIndex := taskIndex
                   taskResponse := call.response.batchIdentifierHash
                   blsSignature := call.blsSignature
                   operatorId := call.response.operatorId }] }
  | .blsResult position accepted =>
      server.calls[position]?.bind fun call =>
        if call.processed ∧ call.reply.isNone then
          some { server with
            calls := server.calls.set position
              { call with reply := some (if accepted then 0 else 1) } }
        else none
  | .timeout position =>
      server.calls[position]?.bind fun call =>
        if call.taskIndex.isSome ∧ call.reply.isNone then
          some { server with calls := server.calls.set position { call with reply := some 1 } }
        else none
  | .blsResponse response =>
      if server.aggregator.collector.holdsLock ∨ server.aggregator.exited ∨
          ¬ response.fromSignatures server.signatures then none
      else
        some { server with
          sent := server.sent ++ handleBlsAggServiceResponse response server.aggregator }

def machine (keccak : Bytes → Bytes32) : Machine Server Label where
  step := step keccak

end Server

end AlignedLayer.Aggregator
