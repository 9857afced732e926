import AlignedLayer.Library.AccountNonces
import AlignedLayer.Library.Machine
import AlignedLayer.Sdk.Constants
import AlignedLayer.Sdk.VerificationData

/-!
# Sending and cancelling a task

`create_new_task` sends the transaction of a batch, and when its receipt does
not come it bids for the nonce of the account with transfers of nothing, each
of them at a higher gas price.  Nobody else sends from the batcher's account.
An endpoint may answer an error although it has broadcast a transaction, and
it may be behind the chain when it is asked for the nonce.
-/

namespace AlignedLayer.Cancellation

def overrideGasPricePercentageMultiplier : Nat := 120

def gasPriceIncrementPercentagePerIteration : Nat := 5

def bumpMaxRetries : Nat := 33

def ethereumCallMaxRetries : Nat := 5

def overrideGasMultiplier (iteration : Nat) : Nat :=
  overrideGasPricePercentageMultiplier + gasPriceIncrementPercentagePerIteration * iteration

/-- `none` is the panic of a product that overflows. -/
def calculateBumpedGasPrice (previousGasPrice currentGasPrice iteration : Nat) : Option Nat :=
  let multiplier := overrideGasMultiplier iteration
  if previousGasPrice * multiplier > u256Max ∨ currentGasPrice * multiplier > u256Max then
    none
  else
    some (max (currentGasPrice * multiplier / percentageDivider)
      (previousGasPrice * multiplier / percentageDivider))

/-- A transaction for a batch: its `createNewTask`, or the bid of an iteration
of the cancellation, counted from one. -/
structure Bid where
  batch : Nat
  gasPrice : Nat
  cancel : Option Nat
  deriving DecidableEq

/-- The attempt of the retry loop, and the variables its closure shares. -/
structure Progress where
  attempt : Nat
  iteration : Nat
  previousGasPrice : Nat
  deriving DecidableEq

inductive Phase where
  | idle
  | creating (gasPrice attempt : Nat) (fallback : Bool)
  | awaiting (gasPrice position : Nat)
  | created (position : Nat)
  /-- The send was answered with a revert, or with errors only. -/
  | refused
  | pricing (progress : Progress)
  | fetchingNonce (progress : Progress)
  | sending (progress : Progress) (nonce : Nat) (fallback : Bool)
  | confirming (progress : Progress) (position : Nat)
  | cancelled (position : Nat)
  | uncancelled
  | panicked
  deriving DecidableEq

/-- `create_new_task` has returned. -/
def Phase.isOver : Phase → Bool
  | .idle | .created _ | .refused | .cancelled _ | .uncancelled => true
  | _ => false

structure State where
  account : NonceAccount Bid
  batches : Nat
  phase : Phase

def initial (nonce : Nat) : State where
  account := ⟨nonce, [], []⟩
  batches := 0
  phase := .idle

/-- The answer of an endpoint to `createNewTask`, whose nonce it has filled in;
a revert is found before anything is broadcast. -/
inductive SendAnswer where
  | accepted (nonce : Nat)
  | reverted
  | failed (broadcast : Option Nat)
  deriving DecidableEq

inductive Label where
  | start (gasPrice : Nat)
  | sendTask (answer : SendAnswer)
  | receipt
  /-- The receipt does not come in time, or asking for it fails. -/
  | giveUp
  | gasPrice (answer : Option Nat)
  | currentNonce (answer : Option Nat)
  /-- An error is answered if it is not accepted. -/
  | sendCancel (accepted broadcast : Bool)
  | mine (position : Nat)
  deriving DecidableEq

namespace State

def goto (phase : Phase) (state : State) : State :=
  { state with phase := phase }

/-- A transaction of the batch at hand reaches the mempool. -/
def broadcast (nonce gasPrice : Nat) (cancel : Option Nat) (state : State) : State :=
  { state with account := state.account.send nonce ⟨state.batches, gasPrice, cancel⟩ }

def start (gasPrice : Nat) (state : State) : Option State :=
  if state.phase.isOver then
    some { state with batches := state.batches + 1, phase := .creating gasPrice 0 false }
  else
    none

/-- After an endpoint has failed: the fallback, the next attempt, or the end. -/
def afterFailure (gasPrice attempt : Nat) (fallback : Bool) : Phase :=
  if !fallback then
    .creating gasPrice attempt true
  else if attempt < ethereumCallMaxRetries then
    .creating gasPrice (attempt + 1) false
  else
    .refused

def sendTask (answer : SendAnswer) (state : State) : Option State :=
  match state.phase with
  | .creating gasPrice attempt fallback =>
      match answer with
      | .reverted => some (state.goto .refused)
      | .accepted nonce =>
          if nonce ≤ state.account.nonce then
            some ((state.broadcast nonce gasPrice none).goto
              (.awaiting gasPrice state.account.sent.length))
          else
            none
      | .failed none => some (state.goto (afterFailure gasPrice attempt fallback))
      | .failed (some nonce) =>
          if nonce ≤ state.account.nonce then
            some ((state.broadcast nonce gasPrice none).goto
              (afterFailure gasPrice attempt fallback))
          else
            none
  | _ => none

def receipt (state : State) : Option State :=
  match state.phase with
  | .awaiting _ position =>
      if state.account.included.contains position then
        some (state.goto (.created position))
      else
        none
  | .confirming _ position =>
      if state.account.included.contains position then
        some (state.goto (.cancelled position))
      else
        none
  | _ => none

/-- The attempt ends with an error that is retried. -/
def retry (progress : Progress) : Phase :=
  if progress.attempt < bumpMaxRetries then
    .pricing { progress with attempt := progress.attempt + 1 }
  else
    .uncancelled

def giveUp (state : State) : Option State :=
  match state.phase with
  | .awaiting gasPrice _ => some (state.goto (.pricing ⟨0, 0, gasPrice⟩))
  | .confirming progress _ => some (state.goto (retry progress))
  | _ => none

def gasPrice (answer : Option Nat) (state : State) : Option State :=
  match state.phase with
  | .pricing progress =>
      match answer with
      | none => some (state.goto (retry progress))
      | some currentGasPrice =>
          match calculateBumpedGasPrice progress.previousGasPrice currentGasPrice
              progress.iteration with
          | none => some (state.goto .panicked)
          | some bumpedGasPrice =>
              some (state.goto (.fetchingNonce
                { progress with
                  iteration := progress.iteration + 1
                  previousGasPrice := bumpedGasPrice }))
  | _ => none

def currentNonce (answer : Option Nat) (state : State) : Option State :=
  match state.phase with
  | .fetchingNonce progress =>
      match answer with
      | none => some (state.goto (retry progress))
      | some nonce =>
          if nonce ≤ state.account.nonce then
            some (state.goto (.sending progress nonce false))
          else
            none
  | _ => none

def sendCancel (accepted broadcast : Bool) (state : State) : Option State :=
  match state.phase with
  | .sending progress nonce fallback =>
      let sent := state.broadcast nonce progress.previousGasPrice (some progress.iteration)
      if accepted then
        some (sent.goto (.confirming progress state.account.sent.length))
      else
        let phase := if fallback then retry progress else .sending progress nonce true
        some ((if broadcast then sent else state).goto phase)
  | _ => none

def mine (position : Nat) (state : State) : Option State :=
  (state.account.mine position).map fun account => { state with account := account }

end State

def step (state : State) : Label → Option State
  | .start gasPrice => state.start gasPrice
  | .sendTask answer => state.sendTask answer
  | .receipt => state.receipt
  | .giveUp => state.giveUp
  | .gasPrice answer => state.gasPrice answer
  | .currentNonce answer => state.currentNonce answer
  | .sendCancel accepted broadcast => state.sendCancel accepted broadcast
  | .mine position => state.mine position

def machine : Machine State Label where
  step := step

end AlignedLayer.Cancellation
