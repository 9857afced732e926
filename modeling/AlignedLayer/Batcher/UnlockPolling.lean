import AlignedLayer.Batcher.Control
import AlignedLayer.Batcher.Entries

/-!
# The polling for unlocked balances

The batcher beside a chain that advances block by block, and the task that
reads the `BalanceUnlocked` events of the blocks since its last pass.  A pass
goes through the users of its events one by one.  Only the requests at the
start of a pass leave its range to the next one when they fail.
-/

namespace AlignedLayer

/-- A pass of `process_balance_unlocked_events` over a range of blocks, and
the users of the events that are still to be processed. -/
structure Pass where
  fromBlock : Nat
  toBlock : Nat
  users : List Address
  deriving DecidableEq

def Pass.Covers (block : Nat) (pass : Pass) : Prop :=
  pass.fromBlock ≤ block ∧ block ≤ pass.toBlock

instance (block : Nat) (pass : Pass) : Decidable (pass.Covers block) :=
  inferInstanceAs (Decidable (_ ∧ _))

structure UnlockPolling where
  system : System
  blockNumber : Nat
  /-- The `BalanceUnlocked` events of the payment contract, with their blocks. -/
  balanceUnlocked : List (Nat × Address)
  fromBlock : Nat
  pass : Option Pass
  /-- History: the passes that have finished. -/
  finished : List Pass

/-- What the polling task does next for the user of an event. -/
inductive Poll where
  | userHasProofs
  | userBalanceIsUnlocked (answered : Bool)
  | batchLockTimeout
  | removeUserProofs
  deriving DecidableEq

def Poll.label (user : Address) : Poll → Label
  | .userHasProofs => .pollProofs user
  | .userBalanceIsUnlocked answered => .pollBalance answered
  | .batchLockTimeout => .stopPolling
  | .removeUserProofs => .removeUserProofs

inductive PollingLabel where
  | task (label : Label)
  | block (calls : List UserCall)
  | startPass (currentBlock : Option Nat)
  | poll (poll : Poll)
  | endPass

/-- Steps of the batcher that this machine takes under labels of its own. -/
def Label.isOwn : Label → Bool
  | .userCall _ => true
  | label => label.isPolling

/-- The users a successful call emits `BalanceUnlocked` for. -/
def UserCall.balanceUnlocked : UserCall → List Address
  | .unlock sender _ => [sender]
  | _ => []

namespace UnlockPolling

/-- A transaction of the current block.  A call that reverts emits nothing. -/
def transact (polling : UnlockPolling) (call : UserCall) : UnlockPolling :=
  match polling.system.userCall call with
  | none => polling
  | some system =>
      { polling with
        system := system
        balanceUnlocked := polling.balanceUnlocked ++
          call.balanceUnlocked.map fun user => (polling.blockNumber, user) }

def block (calls : List UserCall) (polling : UnlockPolling) : UnlockPolling :=
  calls.foldl transact { polling with blockNumber := polling.blockNumber + 1 }

def usersOf (fromBlock toBlock : Nat) (events : List (Nat × Address)) : List Address :=
  (events.filter fun event => fromBlock ≤ event.1 ∧ event.1 ≤ toBlock).map Prod.snd

/-- The block number and the events are requested; without an answer the next
pass starts at the same block. -/
def startPass (currentBlock : Option Nat) (polling : UnlockPolling) : Option UnlockPolling :=
  match polling.pass, currentBlock with
  | some _, _ => none
  | none, none => some polling
  | none, some toBlock =>
      if toBlock ≤ polling.blockNumber then
        some { polling with
          pass := some ⟨polling.fromBlock, toBlock,
            usersOf polling.fromBlock toBlock polling.balanceUnlocked⟩ }
      else
        none

/-- The user is done with when the polling is idle again, whether or not the
proofs were removed. -/
def poll (environment : Environment) (config : Config) (poll : Poll) (polling : UnlockPolling) :
    Option UnlockPolling :=
  match polling.pass with
  | some ⟨fromBlock, toBlock, user :: users⟩ =>
      ((batcher environment config).step polling.system (poll.label user)).map fun system =>
        { polling with
          system := system
          pass := some ⟨fromBlock, toBlock,
            if system.polling = .idle then users else user :: users⟩ }
  | _ => none

def endPass (polling : UnlockPolling) : Option UnlockPolling :=
  match polling.pass with
  | some ⟨fromBlock, toBlock, []⟩ =>
      some { polling with
        fromBlock := toBlock
        pass := none
        finished := polling.finished ++ [⟨fromBlock, toBlock, []⟩] }
  | _ => none

def task (environment : Environment) (config : Config) (label : Label)
    (polling : UnlockPolling) : Option UnlockPolling :=
  if label.isOwn then
    none
  else
    ((batcher environment config).step polling.system label).map fun system =>
      { polling with system := system }

end UnlockPolling

def unlockPolling (environment : Environment) (config : Config) :
    Machine UnlockPolling PollingLabel where
  step polling label :=
    match label with
    | .task label => polling.task environment config label
    | .block calls => some (polling.block calls)
    | .startPass currentBlock => polling.startPass currentBlock
    | .poll poll => polling.poll environment config poll
    | .endPass => polling.endPass

/-- `poll_balance_unlocked_events` starts at the block it is told first. -/
def initialPolling (system : System) (blockNumber fromBlock : Nat) : UnlockPolling :=
  { system := system
    blockNumber := blockNumber
    balanceUnlocked := []
    fromBlock := fromBlock
    pass := none
    finished := [] }

/-! ## The batcher inside -/

variable {environment : Environment} {config : Config} {polling next : UnlockPolling}

theorem UnlockPolling.transact_cases (polling : UnlockPolling) (call : UserCall) :
    polling.transact call = polling ∨
      ∃ system, (batcher environment config).step polling.system (.userCall call) = some system ∧
        polling.transact call = { polling with
          system := system
          balanceUnlocked := polling.balanceUnlocked ++
            call.balanceUnlocked.map fun user => (polling.blockNumber, user) } := by
  rw [transact]
  cases called : polling.system.userCall call with
  | none => exact .inl rfl
  | some system => exact .inr ⟨system, called, rfl⟩

inductive PollingStep (environment : Environment) (config : Config) (polling : UnlockPolling) :
    PollingLabel → UnlockPolling → Prop where
  | task {label : Label} {system : System} (other : label.isOwn = false)
      (stepped : (batcher environment config).step polling.system label = some system) :
      PollingStep environment config polling (.task label) { polling with system := system }
  | block (calls : List UserCall) :
      PollingStep environment config polling (.block calls) (polling.block calls)
  | noAnswer : PollingStep environment config polling (.startPass none) polling
  | startPass {toBlock : Nat} (idle : polling.pass = none)
      (known : toBlock ≤ polling.blockNumber) :
      PollingStep environment config polling (.startPass (some toBlock))
        { polling with
          pass := some ⟨polling.fromBlock, toBlock,
            UnlockPolling.usersOf polling.fromBlock toBlock polling.balanceUnlocked⟩ }
  | poll {poll : Poll} {fromBlock toBlock : Nat} {user : Address} {users : List Address}
      {system : System} (current : polling.pass = some ⟨fromBlock, toBlock, user :: users⟩)
      (stepped : (batcher environment config).step polling.system (poll.label user) =
        some system) :
      PollingStep environment config polling (.poll poll)
        { polling with
          system := system
          pass := some ⟨fromBlock, toBlock,
            if system.polling = .idle then users else user :: users⟩ }
  | endPass {fromBlock toBlock : Nat} (current : polling.pass = some ⟨fromBlock, toBlock, []⟩) :
      PollingStep environment config polling .endPass
        { polling with
          fromBlock := toBlock
          pass := none
          finished := polling.finished ++ [⟨fromBlock, toBlock, []⟩] }

theorem unlockPolling_step_cases {label : PollingLabel}
    (stepped : (unlockPolling environment config).step polling label = some next) :
    PollingStep environment config polling label next := by
  cases label with
  | task label =>
      simp only [unlockPolling, UnlockPolling.task] at stepped
      split at stepped
      · cases stepped
      · rename_i other
        obtain ⟨system, inner, rfl⟩ := Option.map_eq_some_iff.mp stepped
        exact .task (Bool.not_eq_true _ ▸ other) inner
  | block calls =>
      cases stepped
      exact .block calls
  | startPass currentBlock =>
      simp only [unlockPolling, UnlockPolling.startPass] at stepped
      split at stepped
      · cases stepped
      · cases stepped
        exact .noAnswer
      · rename_i toBlock idle
        split at stepped
        · rename_i known
          cases stepped
          exact .startPass idle known
        · cases stepped
  | poll poll =>
      simp only [unlockPolling, UnlockPolling.poll] at stepped
      split at stepped
      · rename_i fromBlock toBlock user users current
        obtain ⟨system, inner, rfl⟩ := Option.map_eq_some_iff.mp stepped
        exact .poll current inner
      · cases stepped
  | endPass =>
      simp only [unlockPolling, UnlockPolling.endPass] at stepped
      split at stepped
      · rename_i fromBlock toBlock current
        cases stepped
        exact .endPass current
      · cases stepped

/-- The transactions of a block are steps of the batcher. -/
theorem transactions_run (calls : List UserCall) (polling : UnlockPolling) :
    ∃ labels, (batcher environment config).run polling.system labels =
      some (calls.foldl UnlockPolling.transact polling).system := by
  induction calls generalizing polling with
  | nil => exact ⟨[], rfl⟩
  | cons call calls induction =>
      obtain ⟨labels, ran⟩ := induction (polling.transact call)
      rcases @UnlockPolling.transact_cases environment config polling call with
        same | ⟨system, called, equation⟩
      · rw [same] at ran
        refine ⟨labels, ?_⟩
        rw [List.foldl_cons, same]
        exact ran
      · refine ⟨.userCall call :: labels, ?_⟩
        rw [equation] at ran
        rw [List.foldl_cons, equation, Machine.run, called]
        exact ran

/-- The steps of the batcher that a step of this machine consists of. -/
theorem unlockPolling_step_batcher {label : PollingLabel}
    (stepped : (unlockPolling environment config).step polling label = some next) :
    ∃ labels, (batcher environment config).run polling.system labels = some next.system := by
  cases unlockPolling_step_cases stepped with
  | @task label system other inner =>
      refine ⟨[label], ?_⟩
      rw [Machine.run, inner]
      rfl
  | block calls =>
      exact transactions_run calls { polling with blockNumber := polling.blockNumber + 1 }
  | noAnswer | startPass | endPass => exact ⟨[], rfl⟩
  | @poll poll fromBlock toBlock user users system current inner =>
      refine ⟨[poll.label user], ?_⟩
      rw [Machine.run, inner]
      rfl

/-- A run beside the chain is a run of the batcher. -/
theorem unlockPolling_run_batcher {labels : List PollingLabel}
    (ran : (unlockPolling environment config).run polling labels = some next) :
    ∃ steps, (batcher environment config).run polling.system steps = some next.system := by
  induction labels generalizing polling with
  | nil =>
      cases ran
      exact ⟨[], rfl⟩
  | cons label labels induction =>
      obtain ⟨middle, stepped, rest⟩ := Option.bind_eq_some_iff.mp ran
      obtain ⟨first, ranFirst⟩ := unlockPolling_step_batcher stepped
      obtain ⟨later, ranLater⟩ := induction rest
      refine ⟨first ++ later, ?_⟩
      rw [Machine.run_append, ranFirst]
      exact ranLater

end AlignedLayer
