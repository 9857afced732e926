import AlignedLayer.Batcher.Guards

/-!
# What one step can do to the shared data

`Change` lists every way in which a step changes the shared data, with the
conditions under which it does.  The invariants of the batcher are proved over
its cases and never unfold a step.
-/

namespace AlignedLayer

/-- The stages before a transaction has been accepted by an endpoint. -/
def Stage.isUnsent : Stage → Bool
  | .finalizing | .uploading | .sending _ | .sendingFallback _ => true
  | _ => false

/-- The stages in which `finalize_batch` is about to return an error. -/
def Stage.isLost : Stage → Bool
  | .failed | .insufficient _ => true
  | _ => false

/-- The stages of a successful submission. -/
def Stage.isClosed : Stage → Bool
  | .updatingUsers _ | .cleaningUsers _ | .responding => true
  | _ => false

/-- The steps of a flush after its start. -/
def Label.isFlush : Label → Bool
  | .fetchNonpayingNonce _ | .clearQueue | .insertNonpaying => true
  | _ => false

/-- Where a flush that was asked for by `origin` leaves the batch. -/
def Shared.afterFlush (origin : FlushOrigin) (shared : Shared) : Shared :=
  match origin with
  | .disabledVerifiers => shared
  | .insufficientBalance =>
      match shared.batch with
      | none => shared
      | some (batch, _) => shared.resetBatch batch

section

variable (environment : Environment) (config : Config) (system : System)

inductive Change : Label → Shared → Prop where
  | unchanged {label : Label} : Change label system.shared
  | insertUser {task : TaskId} {request : Request} {nonce : Nat}
      (running : system.handlers task = some (request, .insertUser nonce)) :
      Change (.insertUser task) (system.shared.createUser request.addr nonce)
  | enqueue {task : TaskId} {layout : QueueLayout} {request : Request} {ref : Ref}
      {balance : Nat}
      (running : system.handlers task = some (request, .enqueue ref balance))
      (room : BatchState.isQueueFull config.maxQueueSize system.shared.batchQueue = false) :
      Change (.enqueue task layout)
        (system.shared.acceptEntry ref (System.newEntry environment request))
  | evict {task : TaskId} {layout : QueueLayout} {request : Request} {ref evictedRef : Ref}
      {balance : Nat} {target : BatchQueueEntry} {evicted : Shared}
      (running : system.handlers task = some (request, .enqueue ref balance))
      (full : BatchState.isQueueFull config.maxQueueSize system.shared.batchQueue = true)
      (found : system.shared.evictionTarget layout system.locks
        request.noncedVerificationData.maxFee = some (evictedRef, target))
      (removed : system.shared.evict layout evictedRef target = .ok evicted) :
      Change (.enqueue task layout)
        (evicted.acceptEntry ref (System.newEntry environment request))
  | evictPanics {task : TaskId} {layout : QueueLayout} {request : Request}
      {ref evictedRef : Ref} {balance : Nat} {target : BatchQueueEntry} {evicted : Shared}
      (running : system.handlers task = some (request, .enqueue ref balance))
      (full : BatchState.isQueueFull config.maxQueueSize system.shared.batchQueue = true)
      (found : system.shared.evictionTarget layout system.locks
        request.noncedVerificationData.maxFee = some (evictedRef, target))
      (removed : system.shared.evict layout evictedRef target = .error evicted) :
      Change (.enqueue task layout) evicted
  | replace {task : TaskId} {verifier : VerifierCall → Bool} {request : Request} {ref : Ref}
      {balance : Nat} {original : BatchQueueEntry}
      (running : system.handlers task = some (request, .replace ref balance))
      (stored : BatchState.getEntry system.shared.batchQueue request.addr
        request.noncedVerificationData.nonce = some original)
      (bumped : original.maxFee ≤ request.noncedVerificationData.maxFee)
      (valid : BatchState.replacementEntryIsValid system.shared.batchQueue
        (System.replacementEntry environment request original) = true) :
      Change (.replace task verifier)
        ((system.shared.notify [original] .proofReplaced).replaceEntry ref original
          (System.replacementEntry environment request original))
  | refuseReplacement {task : TaskId} {verifier : VerifierCall → Bool} {request : Request}
      {ref : Ref} {balance : Nat} {original : BatchQueueEntry}
      (running : system.handlers task = some (request, .replace ref balance))
      (stored : BatchState.getEntry system.shared.batchQueue request.addr
        request.noncedVerificationData.nonce = some original)
      (bumped : original.maxFee ≤ request.noncedVerificationData.maxFee)
      (invalid : BatchState.replacementEntryIsValid system.shared.batchQueue
        (System.replacementEntry environment request original) = false) :
      Change (.replace task verifier) (system.shared.notify [original] .proofReplaced)
  | extract {layout : QueueLayout} {gasPrice blockNumber : Nat}
      (idle : system.shared.batch = none) :
      Change (.extract layout gasPrice blockNumber)
        (system.shared.extract environment config layout
          (gasPrice * gasPricePercentageMultiplier / percentageDivider) blockNumber)
  | advance {label : Label} {batch : InFlight} {stage next : Stage}
      (current : system.shared.batch = some (batch, stage))
      (unsent : stage.isUnsent = true) (later : next.isUnsent = true ∨ next.isLost = true) :
      Change label (system.shared.enter batch next)
  | send {answer : SendAnswer} {label : Label} {batch : InFlight} {stage next : Stage}
      (labelled : label = .send answer ∨ label = .sendFallback answer)
      (current : system.shared.batch = some (batch, stage)) (unsent : stage.isUnsent = true)
      (answered : (answer = .accepted ∧
          next = .waiting system.shared.chain.nextTransaction) ∨
        (answer = .failed true ∧ (next.isUnsent = true ∨ next.isLost = true))) :
      Change label ((system.shared.broadcast batch).enter batch next)
  | giveUpWaiting {batch : InFlight} {id : Nat}
      (current : system.shared.batch = some (batch, .waiting id)) :
      Change .giveUpWaiting (system.shared.enter batch .cancelling)
  | endCancel {batch : InFlight} (current : system.shared.batch = some (batch, .cancelling)) :
      Change .endCancel (system.shared.enter batch .failed)
  | receipt {batch : InFlight} {id : Nat}
      (current : system.shared.batch = some (batch, .waiting id))
      (included : (system.shared.chain.included.any fun transaction =>
        transaction.1.id = id) = true) :
      Change .receipt (system.shared.enter batch (.updatingUsers (sendersOf batch.entries)))
  | updateUser {layout : QueueLayout} {address : Address} {batch : InFlight}
      {users : List Address} (current : system.shared.batch = some (batch, .updatingUsers users))
      (member : address ∈ users) (free : system.userIsFree address = true) :
      Change (.updateUser layout address)
        ((system.shared.updateUser layout address).enter batch
          (.updatingUsers (users.erase address)))
  | updateRestoredUser {layout : QueueLayout} {address : Address} {batch : InFlight}
      {users : List Address} (current : system.shared.batch = some (batch, .restored users))
      (member : address ∈ users) (free : system.userIsFree address = true) :
      Change (.updateUser layout address)
        ((system.shared.updateUser layout address).enter batch (.restored (users.erase address)))
  | cleanupUser {layout : QueueLayout} {address : Address} {batch : InFlight}
      {users : List Address} (current : system.shared.batch = some (batch, .cleaningUsers users))
      (free : system.userIsFree address = true) :
      Change (.cleanupUser layout address)
        ((system.shared.cleanupUser layout address).enter batch
          (.cleaningUsers (users.erase address)))
  | close {label : Label} {batch : InFlight} {stage next : Stage}
      (current : system.shared.batch = some (batch, stage)) (closed : stage.isClosed = true)
      (updated : ∀ users, stage = .updatingUsers users → users = [])
      (later : (∃ users, next = .cleaningUsers users) ∨ next = .responding) :
      Change label (system.shared.enter batch next)
  | endRestored {batch : InFlight} (current : system.shared.batch = some (batch, .restored [])) :
      Change .endUpdates { system.shared with batch := none }
  | respond {serializationFails : Nat → Bool} {batch : InFlight}
      (current : system.shared.batch = some (batch, .responding)) :
      Change (.respond serializationFails) (system.shared.respond serializationFails batch)
  | restore {layout : QueueLayout} {batch : InFlight} {restored : Shared}
      (current : system.shared.batch = some (batch, .failed))
      (ran : system.shared.restore layout config.maxQueueSize batch = some restored) :
      Change (.restore layout) restored
  | flush : Change .clearQueue system.shared.flush
  | flushAndReset {label : Label} {origin : FlushOrigin} {stage : FlushStage}
      (labelled : label.isFlush = true) (flushing : system.flush = some (origin, stage)) :
      Change label (system.shared.flush.afterFlush origin)
  | insertNonpaying {origin : FlushOrigin} {address : Address} {nonce : Nat}
      (flushing : system.flush = some (origin, .cleared nonce))
      (configured : config.nonpayingReplacementAddr = some address) :
      Change .insertNonpaying ((system.shared.createUser address nonce).afterFlush origin)
  | removeUserProofs {address : Address} (polled : system.polling = .unlocked address) :
      Change .removeUserProofs (system.shared.removeUserProofs address)
  | mine {transaction blockNumber : Nat} {chain : Chain}
      (mined : system.shared.chain.mine environment config transaction blockNumber =
        some chain) :
      Change (.mine transaction blockNumber) { system.shared with chain := chain }
  | dropTransaction {transaction : Nat} :
      Change (.dropTransaction transaction)
        { system.shared with chain := system.shared.chain.drop transaction }
  | userCall {call : UserCall} {chain : Chain}
      (called : system.shared.chain.userCall call = some chain) :
      Change (.userCall call) { system.shared with chain := chain }

end

/-! ## Fields that the bookkeeping of a handler leaves alone -/

section

variable (task : TaskId) (request : Request) (system : System)

@[simp] theorem System.finish_shared : (system.finish task).shared = system.shared := rfl

@[simp] theorem System.goto_shared (phase : Phase) :
    (system.goto task request phase).shared = system.shared := rfl

@[simp] theorem System.reply_shared (sink : WsMessageSink)
    (message : SubmitProofResponseMessage) :
    (system.reply sink message).shared = system.shared := rfl

@[simp] theorem System.reject_shared (message : SubmitProofResponseMessage) :
    (system.reject task request message).shared = system.shared := rfl

@[simp] theorem System.withShared_shared (shared : Shared) :
    (system.withShared shared).shared = shared := rfl

@[simp] theorem System.finishFlush_shared (origin : FlushOrigin) :
    (system.finishFlush origin).shared = system.shared.afterFlush origin := by
  cases origin with
  | disabledVerifiers => rfl
  | insufficientBalance =>
      rw [finishFlush, Shared.afterFlush]
      cases system.shared.batch with
      | none => rfl
      | some batch => rfl

end

/-! ## Every step is one of the changes -/

section

variable {environment : Environment} {config : Config} {system next : System}

private theorem enqueue_change {task : TaskId} {layout : QueueLayout}
    (stepped : system.enqueue environment config task layout = some next) :
    Change environment config system (.enqueue task layout) next.shared := by
  rw [System.enqueue] at stepped
  split at stepped
  · rename_i request ref balance running
    split at stepped
    · cases stepped
    · simp only at stepped
      split at stepped
      · rename_i full
        split at stepped
        · cases stepped
          exact .unchanged
        · rename_i evictedRef target found
          split at stepped
          · rename_i evicted removed
            cases stepped
            exact .evictPanics running full found removed
          · rename_i evicted removed
            cases stepped
            exact .evict running full found removed
      · rename_i room
        cases stepped
        exact .enqueue running (Bool.eq_false_iff.mpr room)
  · cases stepped

private theorem replace_change {task : TaskId} {verifier : VerifierCall → Bool}
    (stepped : system.replace environment config task verifier = some next) :
    Change environment config system (.replace task verifier) next.shared := by
  rw [System.replace] at stepped
  split at stepped
  · rename_i request ref balance running
    split at stepped
    · cases stepped
    · simp only at stepped
      split at stepped
      · cases stepped
        exact .unchanged
      · rename_i original stored
        split at stepped
        · cases stepped
          exact .unchanged
        · split at stepped
          · cases stepped
            exact .unchanged
          · rename_i bumped
            split at stepped
            · cases stepped
              exact .unchanged
            · split at stepped
              · rename_i valid
                cases stepped
                exact .replace running stored (by omega) valid
              · rename_i invalid
                cases stepped
                exact .refuseReplacement running stored (by omega) (Bool.eq_false_iff.mpr invalid)
  · cases stepped

private theorem afterSend_change {label : Label} {answer : SendAnswer} {batch : InFlight}
    {stage later : Stage} (labelled : label = .send answer ∨ label = .sendFallback answer)
    (current : system.shared.batch = some (batch, stage)) (unsent : stage.isUnsent = true)
    (after : later.isUnsent = true ∨ later.isLost = true)
    (stepped : system.afterSend environment config batch later answer = some next) :
    Change environment config system label next.shared := by
  unfold System.afterSend at stepped
  split at stepped
  · cases stepped
    exact .send labelled current unsent (.inl ⟨rfl, rfl⟩)
  · split at stepped
    · cases stepped
    · rename_i error failed
      cases stepped
      refine .advance current unsent (.inr ?_)
      cases error <;> rfl
  · rename_i broadcast
    cases stepped
    cases broadcast with
    | true => exact .send labelled current unsent (.inr ⟨rfl, after⟩)
    | false => exact .advance current unsent after

private theorem updateUser_change {layout : QueueLayout} {address : Address}
    (stepped : system.updateUser layout address = some next) :
    Change environment config system (.updateUser layout address) next.shared := by
  rw [System.updateUser] at stepped
  split at stepped
  · cases stepped
  · rename_i available
    simp only [Bool.or_eq_true, Bool.not_eq_true', not_or, Bool.not_eq_false] at available
    split at stepped
    · rename_i batch users current
      split at stepped
      · rename_i member
        cases stepped
        exact .updateUser current member available.2
      · cases stepped
    · rename_i batch users current
      split at stepped
      · rename_i member
        cases stepped
        exact .updateRestoredUser current member available.2
      · cases stepped
    · cases stepped

private theorem cleanupUser_change {layout : QueueLayout} {address : Address}
    (stepped : system.cleanupUser layout address = some next) :
    Change environment config system (.cleanupUser layout address) next.shared := by
  rw [System.cleanupUser] at stepped
  split at stepped
  · rename_i batch users current
    split at stepped
    · cases stepped
      by_cases free : system.userIsFree address = true
      · simp only [free, if_true]
        exact .cleanupUser current free
      · simp only [free]
        exact .close current rfl (by simp) (.inl ⟨_, rfl⟩)
    · cases stepped
  · cases stepped

private theorem endUpdates_change (stepped : system.endUpdates = some next) :
    Change environment config system .endUpdates next.shared := by
  rw [System.endUpdates] at stepped
  split at stepped
  · rename_i batch current
    cases stepped
    exact .close current rfl (by simp) (.inl ⟨_, rfl⟩)
  · rename_i batch current
    cases stepped
    exact .close current rfl (by simp) (.inr rfl)
  · rename_i batch current
    cases stepped
    exact .endRestored current
  · cases stepped

private theorem fetchNonpayingNonce_change {answered : Bool}
    (stepped : system.fetchNonpayingNonce config answered = some next) :
    Change environment config system (.fetchNonpayingNonce answered) next.shared := by
  rw [System.fetchNonpayingNonce] at stepped
  split at stepped
  · rename_i origin address flushing configured
    split at stepped
    · cases stepped
      exact .unchanged
    · cases stepped
      rw [System.finishFlush_shared]
      exact .flushAndReset rfl flushing
  · cases stepped

private theorem clearQueue_change (stepped : system.clearQueue config = some next) :
    Change environment config system .clearQueue next.shared := by
  rw [System.clearQueue] at stepped
  split at stepped
  · rename_i origin flushing configured
    cases stepped
    rw [System.finishFlush_shared]
    exact .flushAndReset rfl flushing
  · cases stepped
    exact .flush
  · cases stepped

private theorem insertNonpaying_change (stepped : system.insertNonpaying config = some next) :
    Change environment config system .insertNonpaying next.shared := by
  rw [System.insertNonpaying] at stepped
  split at stepped
  · rename_i origin nonce address flushing configured
    cases stepped
    rw [System.finishFlush_shared]
    exact .insertNonpaying flushing configured
  · cases stepped

/-- What a step does to the shared data is one of the listed changes. -/
theorem step_change {label : Label}
    (stepped : (batcher environment config).step system label = some next) :
    Change environment config system label next.shared := by
  cases label with
  | receive task message sink =>
      simp only [batcher, System.receive] at stepped
      repeat' split at stepped
      all_goals first | (cases stepped; exact .unchanged) | cases stepped
  | checkLocked task answered =>
      simp only [batcher, System.checkLocked] at stepped
      repeat' split at stepped
      all_goals first | (cases stepped; exact .unchanged) | cases stepped
  | checkUser task =>
      simp only [batcher, System.checkUser] at stepped
      repeat' split at stepped
      all_goals first | (cases stepped; exact .unchanged) | cases stepped
  | fetchNonce task answered =>
      simp only [batcher, System.fetchNonce] at stepped
      repeat' split at stepped
      all_goals first | (cases stepped; exact .unchanged) | cases stepped
  | insertUser task =>
      simp only [batcher, System.insertUser] at stepped
      split at stepped
      · rename_i request nonce running
        cases stepped
        exact .insertUser running
      · cases stepped
  | getUser task =>
      simp only [batcher, System.getUser] at stepped
      repeat' split at stepped
      all_goals first | (cases stepped; exact .unchanged) | cases stepped
  | lockUser task =>
      simp only [batcher, System.lockUser] at stepped
      repeat' split at stepped
      all_goals first | (cases stepped; exact .unchanged) | cases stepped
  | readBalance task answered =>
      simp only [batcher, System.readBalance] at stepped
      repeat' split at stepped
      all_goals first | (cases stepped; exact .unchanged) | cases stepped
  | verifyProof task verifier =>
      simp only [batcher, System.verifyProof] at stepped
      repeat' split at stepped
      all_goals first | (cases stepped; exact .unchanged) | cases stepped
  | enqueue task layout => exact enqueue_change stepped
  | replace task verifier => exact replace_change stepped
  | timeout task =>
      simp only [batcher, System.timeout] at stepped
      repeat' split at stepped
      all_goals first | (cases stepped; exact .unchanged) | cases stepped
  | newBlock gasPrice =>
      simp only [batcher, System.newBlock] at stepped
      cases stepped
      exact .unchanged
  | setDisabledVerifiers value =>
      simp only [batcher, System.setDisabledVerifiers] at stepped
      repeat' split at stepped
      all_goals first | (cases stepped; exact .unchanged) | cases stepped
  | extract layout gasPrice blockNumber =>
      simp only [batcher, System.extract] at stepped
      split at stepped
      · cases stepped
      · rename_i available
        simp only [Bool.or_eq_true, not_or, Bool.not_eq_true, Option.isSome_eq_false_iff,
          Option.isNone_iff_eq_none] at available
        repeat' split at stepped
        all_goals first | (cases stepped; exact .unchanged) | cases stepped
        exact .extract available.2
  | finalize =>
      simp only [batcher, System.finalize] at stepped
      split at stepped
      · rename_i batch current
        cases stepped
        exact .advance current rfl (.inl rfl)
      · cases stepped
  | failSubmission =>
      simp only [batcher, System.failSubmission] at stepped
      split at stepped
      · rename_i batch current
        cases stepped
        exact .advance current rfl (.inr rfl)
      · rename_i batch current
        cases stepped
        exact .advance current rfl (.inr rfl)
      · cases stepped
  | simulate answered blockNumber =>
      simp only [batcher, System.simulate] at stepped
      split at stepped
      · rename_i batch current
        split at stepped
        · split at stepped
          · cases stepped
            exact .advance current rfl (.inl rfl)
          · rename_i error failed
            cases stepped
            refine .advance current rfl (.inr ?_)
            cases error <;> rfl
        · cases stepped
          exact .advance current rfl (.inr rfl)
      · cases stepped
  | send answer =>
      simp only [batcher, System.send] at stepped
      split at stepped
      · rename_i batch attempt current
        exact afterSend_change (.inl rfl) current rfl (.inl rfl) stepped
      · cases stepped
  | sendFallback answer =>
      simp only [batcher, System.sendFallback] at stepped
      split at stepped
      · rename_i batch attempt current
        refine afterSend_change (.inr rfl) current rfl ?_ stepped
        split
        · exact .inl rfl
        · exact .inr rfl
      · cases stepped
  | receipt =>
      simp only [batcher, System.receipt] at stepped
      split at stepped
      · rename_i batch id current
        split at stepped
        · rename_i included
          cases stepped
          exact .receipt current included
        · cases stepped
      · cases stepped
  | giveUpWaiting =>
      simp only [batcher, System.giveUpWaiting] at stepped
      split at stepped
      · rename_i batch id current
        cases stepped
        exact .giveUpWaiting current
      · cases stepped
  | endCancel =>
      simp only [batcher, System.endCancel] at stepped
      split at stepped
      · rename_i batch current
        cases stepped
        exact .endCancel current
      · cases stepped
  | updateUser layout address => exact updateUser_change stepped
  | cleanupUser layout address => exact cleanupUser_change stepped
  | skipCleanup =>
      simp only [batcher, System.skipCleanup] at stepped
      split at stepped
      · rename_i batch users current
        cases stepped
        exact .close current rfl (by simp) (.inr rfl)
      · cases stepped
  | endUpdates => exact endUpdates_change stepped
  | respond serializationFails =>
      simp only [batcher, System.respond] at stepped
      split at stepped
      · rename_i batch current
        cases stepped
        exact .respond current
      · cases stepped
  | restore layout =>
      simp only [batcher, System.restore] at stepped
      split at stepped
      · rename_i batch current
        split at stepped
        · cases stepped
        · obtain ⟨restored, ran, rfl⟩ := Option.map_eq_some_iff.mp stepped
          exact .restore current ran
      · cases stepped
  | startFlush origin =>
      simp only [batcher, System.startFlush] at stepped
      repeat' split at stepped
      all_goals first | (cases stepped; exact .unchanged) | cases stepped
  | fetchNonpayingNonce answered => exact fetchNonpayingNonce_change stepped
  | clearQueue => exact clearQueue_change stepped
  | insertNonpaying => exact insertNonpaying_change stepped
  | pollProofs address =>
      simp only [batcher, System.pollProofs] at stepped
      repeat' split at stepped
      all_goals first | (cases stepped; exact .unchanged) | cases stepped
  | pollBalance answered =>
      simp only [batcher, System.pollBalance] at stepped
      repeat' split at stepped
      all_goals first | (cases stepped; exact .unchanged) | cases stepped
  | stopPolling =>
      simp only [batcher, System.stopPolling] at stepped
      repeat' split at stepped
      all_goals first | (cases stepped; exact .unchanged) | cases stepped
  | removeUserProofs =>
      simp only [batcher, System.removeUserProofs] at stepped
      split at stepped
      · rename_i address polled
        split at stepped
        · cases stepped
        · cases stepped
          exact .removeUserProofs polled
      · cases stepped
  | mine transaction blockNumber =>
      obtain ⟨chain, mined, rfl⟩ := Option.map_eq_some_iff.mp stepped
      exact .mine mined
  | dropTransaction transaction =>
      simp only [batcher, System.dropTransaction] at stepped
      cases stepped
      exact .dropTransaction
  | userCall call =>
      obtain ⟨chain, called, rfl⟩ := Option.map_eq_some_iff.mp stepped
      exact .userCall called

end

end AlignedLayer
