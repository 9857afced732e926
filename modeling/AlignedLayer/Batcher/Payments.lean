import AlignedLayer.Batcher.AtMostOnce
import AlignedLayer.Batcher.Keys
import AlignedLayer.Batcher.Signatures

/-!
# A user pays for what it signed, and once

The balance of a user is what it deposited, less what it withdrew and what the
batches on the chain took.  In the runs in which no proof is submitted twice,
a batch takes at most the `max_fee` of each proof, so that distinct messages
that the user signed cover everything it paid.
-/

namespace AlignedLayer

/-! ## The ledger of a user -/

namespace UserCall

/-- What the call adds to the balance of the user. -/
def deposited (user : Address) : UserCall → Nat
  | .deposit sender value => if sender = user then value else 0
  | _ => 0

/-- What the call pays out to the user. -/
def withdrawn (user : Address) : UserCall → Nat
  | .withdraw sender amount _ => if sender = user then amount else 0
  | _ => 0

end UserCall

def Label.deposited (user : Address) : Label → Nat
  | .userCall call => call.deposited user
  | _ => 0

def Label.withdrawn (user : Address) : Label → Nat
  | .userCall call => call.withdrawn user
  | _ => 0

/-- What a `createNewTask` that succeeds takes from the user. -/
def Transaction.takes (user : Address) (transaction : Transaction) : Nat :=
  transaction.call.feePerProof * transaction.call.proofSubmitters.count user

/-- What the batches on the chain took from the user. -/
def Chain.paidBy (user : Address) (chain : Chain) : Nat :=
  ((chain.included.filter Prod.snd).map fun transaction => transaction.1.takes user).sum

variable {environment : Environment} {config : Config} {system next : System} {label : Label}
  {after : Shared} {user : Address}

namespace Chain

variable {chain called : Chain}

theorem paidBy_append {transaction : Transaction} {success : Bool}
    (included : called.included = chain.included ++ [(transaction, success)]) :
    called.paidBy user = chain.paidBy user + if success then transaction.takes user else 0 := by
  cases success <;> simp [paidBy, included]

/-- Writing one user's data moves the balance of this user only. -/
private theorem balance_moves {userData : Address → BatcherPaymentService.UserInfo}
    {sender : Address} {info : BatcherPaymentService.UserInfo} {paidIn paidOut : Nat}
    (own : (userData sender).balance + paidIn = info.balance + paidOut) :
    (userData user).balance + (if sender = user then paidIn else 0) =
      (Function.update userData sender info user).balance +
        if sender = user then paidOut else 0 := by
  by_cases same : sender = user
  · subst same
    rw [Function.update_self, if_pos rfl, if_pos rfl]
    exact own
  · rw [Function.update_of_ne (Ne.symm same), if_neg same, if_neg same]

private theorem balance_stays {userData : Address → BatcherPaymentService.UserInfo}
    {sender : Address} {info : BatcherPaymentService.UserInfo}
    (own : (userData sender).balance = info.balance) :
    (userData user).balance = (Function.update userData sender info user).balance := by
  by_cases same : user = sender
  · subst same
    rw [Function.update_self]
    exact own
  · rw [Function.update_of_ne same]

/-- A call of a user changes its own balance only, by what is paid in or out. -/
theorem userCall_ledger {call : UserCall}
    (ordinary : user ≠ chain.paymentService.alignedLayerServiceManager)
    (ran : chain.userCall call = some called) :
    called.paymentService.alignedLayerServiceManager =
        chain.paymentService.alignedLayerServiceManager ∧
      chain.userBalance user + call.deposited user =
        called.userBalance user + call.withdrawn user := by
  simp only [userCall] at ran
  split at ran
  · rename_i service result
    cases ran
    cases call with
    | deposit sender value =>
        simp only [BatcherPaymentService.receive] at result
        split at result
        · rename_i fromManager
          cases result
          have other : sender ≠ user := fun same => ordinary (same ▸ fromManager)
          refine ⟨rfl, ?_⟩
          rw [UserCall.deposited, if_neg other]
          rfl
        · simp only [bind_eq_ok, checkedAdd_eq_ok] at result
          obtain ⟨balance, ⟨-, rfl⟩, result⟩ := result
          cases result
          have moved := @balance_moves user chain.paymentService.userData sender
            ⟨_, 0, (chain.paymentService.userData sender).nonce⟩ value 0 rfl
          rw [ite_self] at moved
          exact ⟨rfl, moved⟩
    | unlock sender timestamp =>
        simp only [BatcherPaymentService.unlock, bind_eq_ok, revertIf_eq_ok] at result
        obtain ⟨-, -, -, -, time, -, result⟩ := result
        cases result
        exact ⟨rfl, balance_stays rfl⟩
    | lock sender =>
        simp only [BatcherPaymentService.lock, bind_eq_ok, revertIf_eq_ok] at result
        obtain ⟨-, -, -, -, result⟩ := result
        cases result
        exact ⟨rfl, balance_stays rfl⟩
    | withdraw sender amount timestamp =>
        simp only [BatcherPaymentService.withdraw, bind_eq_ok, revertIf_eq_ok] at result
        obtain ⟨-, -, -, covered, -, -, -, -, result⟩ := result
        cases result
        have moved := @balance_moves user chain.paymentService.userData sender
          ⟨_, 0, (chain.paymentService.userData sender).nonce⟩ 0 amount
          (Nat.sub_add_cancel (Nat.not_lt.mp covered)).symm
        rw [ite_self] at moved
        exact ⟨rfl, moved⟩
    | setPaused paused =>
        cases result
        exact ⟨rfl, rfl⟩
  · cases ran

end Chain

theorem BatcherPaymentService.createNewTask_manager {keccak : Bytes → Bytes32}
    {blockNumber : Nat} {sender : Address} {call : CreateNewTask} {state later : State}
    {manager managed : AlignedLayerServiceManager.State}
    (created : createNewTask keccak blockNumber sender call state manager = .ok (later, managed)) :
    later.alignedLayerServiceManager = state.alignedLayerServiceManager := by
  simp only [createNewTask, bind_eq_ok, revertIf_eq_ok, pure, Except.pure,
    Except.ok.injEq, Prod.mk.injEq] at created
  obtain ⟨-, -, -, -, -, -, -, -, total, -, -, -, userData, -, -, -, other, -, -, -, rfl, -⟩ :=
    created
  rfl

theorem Chain.mine_ledger {chain mined : Chain} {id blockNumber : Nat}
    (ran : chain.mine environment config id blockNumber = some mined) :
    mined.paymentService.alignedLayerServiceManager =
        chain.paymentService.alignedLayerServiceManager ∧
      chain.userBalance user + chain.paidBy user = mined.userBalance user + mined.paidBy user := by
  obtain ⟨transaction, -, -, -, -, result⟩ := Chain.mine_eq_some ran
  rcases result with ⟨service, manager, executed, sameService, included⟩ |
    ⟨sameService, included⟩
  · obtain ⟨charged, -⟩ := BatcherPaymentService.createNewTask_ok executed
    obtain ⟨enough, afterUser⟩ := BatcherPaymentService.decreaseUserBalances_ok charged user
    refine ⟨sameService ▸ BatcherPaymentService.createNewTask_manager executed, ?_⟩
    rw [Chain.paidBy_append included, if_pos rfl]
    simp only [Chain.userBalance, BatcherPaymentService.userBalances, sameService, afterUser,
      BatcherPaymentService.UserInfo.charged, Transaction.takes]
    omega
  · rw [sameService, Chain.paidBy_append included]
    simp [Chain.userBalance, sameService]

/-- A step leaves the balances alone, includes a transaction, or is a call of a
user. -/
theorem Change.chain_cases (change : Change environment config system label after) :
    (after.chain.paymentService = system.shared.chain.paymentService ∧
        after.chain.included = system.shared.chain.included) ∨
      (∃ id blockNumber,
        system.shared.chain.mine environment config id blockNumber = some after.chain) ∨
      ∃ call, label = .userCall call := by
  cases change with
  | evict running full found removed =>
      obtain ⟨userStates, cells, rfl⟩ := Shared.evict_eq_ok removed
      exact .inl ⟨rfl, rfl⟩
  | evictPanics running full found removed =>
      obtain ⟨userStates, cells, rfl⟩ := Shared.evict_eq_error removed
      exact .inl ⟨rfl, rfl⟩
  | @extract layout gasPrice blockNumber idle =>
      rcases Shared.extract_cases environment config layout
        (gasPrice * gasPricePercentageMultiplier / percentageDivider) blockNumber system.shared
        with ⟨rest, -, equation⟩ | ⟨entries, rest, -, equation⟩
      · rw [equation]
        exact .inl ⟨rfl, rfl⟩
      · rw [equation]
        exact .inl ⟨rfl, rfl⟩
  | @updateUser layout address batch users current member free =>
      obtain ⟨cells, equation⟩ := Shared.updateUser_eq layout address system.shared
      rw [equation]
      exact .inl ⟨rfl, rfl⟩
  | @updateRestoredUser layout address batch users current member free =>
      obtain ⟨cells, equation⟩ := Shared.updateUser_eq layout address system.shared
      rw [equation]
      exact .inl ⟨rfl, rfl⟩
  | @cleanupUser layout address batch users current free =>
      obtain ⟨cells, equation⟩ := Shared.cleanupUser_eq layout address system.shared
      rw [equation]
      exact .inl ⟨rfl, rfl⟩
  | restore current ran =>
      obtain ⟨queue, users, lost, rfl, -⟩ := Shared.restore_eq_some ran
      exact .inl ⟨rfl, rfl⟩
  | flushAndReset labelled flushing =>
      rw [Shared.afterFlush_chain]
      exact .inl ⟨rfl, rfl⟩
  | insertNonpaying flushing configured =>
      rw [Shared.afterFlush_chain]
      exact .inl ⟨rfl, rfl⟩
  | mine mined => exact .inr (.inl ⟨_, _, mined⟩)
  | userCall called => exact .inr (.inr ⟨_, rfl⟩)
  | _ => exact .inl ⟨rfl, rfl⟩

theorem Label.ledger_eq_zero (notCall : ∀ call, label ≠ .userCall call) (user : Address) :
    label.deposited user = 0 ∧ label.withdrawn user = 0 := by
  cases label with
  | userCall call => exact absurd rfl (notCall call)
  | _ => exact ⟨rfl, rfl⟩

/-- What comes in is kept, paid for proofs or paid out. -/
theorem step_ledger
    (ordinary : user ≠ system.shared.chain.paymentService.alignedLayerServiceManager)
    (stepped : (batcher environment config).step system label = some next) :
    next.shared.chain.paymentService.alignedLayerServiceManager =
        system.shared.chain.paymentService.alignedLayerServiceManager ∧
      system.shared.chain.userBalance user + system.shared.chain.paidBy user +
          label.deposited user =
        next.shared.chain.userBalance user + next.shared.chain.paidBy user +
          label.withdrawn user := by
  by_cases isCall : ∃ call, label = .userCall call
  · obtain ⟨call, rfl⟩ := isCall
    obtain ⟨called, ran, rfl⟩ := Option.map_eq_some_iff.mp stepped
    obtain ⟨manager, balance⟩ := Chain.userCall_ledger ordinary ran
    have included : called.paidBy user = system.shared.chain.paidBy user := by
      rw [Chain.userCall_eq_some ran]
      rfl
    refine ⟨manager, ?_⟩
    simp only [System.withChain, System.withShared_shared, Label.deposited, Label.withdrawn,
      included]
    omega
  · obtain ⟨noDeposit, noWithdrawal⟩ := Label.ledger_eq_zero (not_exists.mp isCall) user
    rw [noDeposit, noWithdrawal]
    rcases (step_change stepped).chain_cases with ⟨service, included⟩ |
      ⟨id, blockNumber, mined⟩ | isCall'
    · refine ⟨congrArg _ service, ?_⟩
      simp only [Chain.userBalance, Chain.paidBy, service, included]
    · exact Chain.mine_ledger mined
    · exact absurd isCall' isCall

def deposited (user : Address) (labels : List Label) : Nat :=
  (labels.map (Label.deposited user)).sum

def withdrawn (user : Address) (labels : List Label) : Nat :=
  (labels.map (Label.withdrawn user)).sum

theorem run_ledger {labels : List Label} {finish : System}
    (ordinary : user ≠ system.shared.chain.paymentService.alignedLayerServiceManager)
    (ran : (batcher environment config).run system labels = some finish) :
    system.shared.chain.userBalance user + system.shared.chain.paidBy user +
        deposited user labels =
      finish.shared.chain.userBalance user + finish.shared.chain.paidBy user +
        withdrawn user labels := by
  induction labels generalizing system with
  | nil =>
      simp only [Machine.run, Option.some.injEq] at ran
      rw [ran]
      rfl
  | cons label labels induction =>
      obtain ⟨next, stepped, rest⟩ := Option.bind_eq_some_iff.mp ran
      obtain ⟨manager, step⟩ := step_ledger ordinary stepped
      have later := induction (manager ▸ ordinary) rest
      simp only [deposited, withdrawn, List.map_cons, List.sum_cons] at later ⊢
      omega

/-! ## A batch takes at most the `max_fee` -/

/-- Restored entries get their own priority, as none of them is queued. -/
theorem Shared.restoreEntries_ownPriorities {layout : QueueLayout} {maxQueueSize : Nat}
    {entries restoredEntries restored : List BatchQueueEntry} {queue final : BatchQueue}
    (own : OwnPriorities queue)
    (distinct : ((entries ++ queue.items).map BatchQueueEntry.key).Nodup)
    (ran : restoreEntries layout maxQueueSize entries restoredEntries queue =
      some (final, restored)) : OwnPriorities final := by
  induction entries generalizing restoredEntries queue with
  | nil =>
      cases ran
      exact own
  | cons entry rest induction =>
      rw [List.cons_append, List.map_cons, List.nodup_cons] at distinct
      obtain ⟨fresh, restDistinct⟩ := distinct
      have absent : entry.key ∉ queue.items.map BatchQueueEntry.key := by
        intro queued
        apply fresh
        rw [List.map_append]
        exact List.mem_append_right _ queued
      have pushed : restoreEntries layout maxQueueSize rest (restoredEntries ++ [entry])
            (queue.push entry entry.priority) = some (final, restored) →
          OwnPriorities final := by
        intro ranRest
        apply induction (own.push absent) _ ranRest
        have moved : (rest ++ (queue.push entry entry.priority).items).Perm
            (entry :: (rest ++ queue.items)) :=
          ((items_push_perm absent).append_left rest).trans List.perm_middle
        apply ((moved.map BatchQueueEntry.key).nodup_iff).mpr
        rw [List.map_cons, List.nodup_cons]
        exact ⟨fresh, restDistinct⟩
      rw [restoreEntries] at ran
      split at ran
      · split at ran
        · exact pushed ran
        · split at ran
          · cases ran
          · exact induction own restDistinct ran
      · exact pushed ran

theorem Change.ownPriorities (once : ChargedOnce system)
    (own : OwnPriorities system.shared.batchQueue)
    (free : AcceptsFree System.IsNew system label)
    (change : Change environment config system label after) :
    OwnPriorities after.batchQueue := by
  have notQueued : ∀ {key : Address × Nat}, system.IsNew key →
      key ∉ system.shared.batchQueue.items.map BatchQueueEntry.key := by
    intro key new queued
    apply new
    rw [Shared.waiting, List.append_assoc, List.map_append]
    exact List.mem_append_left _ queued
  cases change with
  | enqueue running room =>
      exact own.push (notQueued (System.When.running free running rfl))
  | evict running full found removed =>
      obtain ⟨userStates, cells, rfl⟩ := Shared.evict_eq_ok removed
      apply (own.erase _).push
      intro queued
      obtain ⟨entry, member, same⟩ := List.mem_map.mp queued
      apply notQueued (System.When.running free running rfl)
      rw [← System.newEntry_key, ← same]
      exact List.mem_map_of_mem (mem_items_erase.mp member).1
  | evictPanics running full found removed =>
      obtain ⟨userStates, cells, rfl⟩ := Shared.evict_eq_error removed
      exact own.erase _
  | replace running stored bumped valid =>
      apply (own.erase _).push
      intro queued
      obtain ⟨entry, member, same⟩ := List.mem_map.mp queued
      exact (mem_items_erase.mp member).2 same
  | @extract layout gasPrice blockNumber idle =>
      rcases Shared.extract_cases environment config layout
        (gasPrice * gasPricePercentageMultiplier / percentageDivider) blockNumber system.shared
        with ⟨rest, permutation, equation⟩ | ⟨entries, rest, ⟨extracted⟩, equation⟩
      · rw [equation]
        exact own.of_subset fun _ member => permutation.mem_iff.mp member
      · rw [equation]
        exact own.of_subset fun _ member =>
          extracted.perm.mem_iff.mpr (List.mem_append_right _ member)
  | @updateUser layout address batch users current member free =>
      obtain ⟨cells, equation⟩ := Shared.updateUser_eq layout address system.shared
      rw [equation]
      exact own
  | @updateRestoredUser layout address batch users current member free =>
      obtain ⟨cells, equation⟩ := Shared.updateUser_eq layout address system.shared
      rw [equation]
      exact own
  | @cleanupUser layout address batch users current free =>
      obtain ⟨cells, equation⟩ := Shared.cleanupUser_eq layout address system.shared
      rw [equation]
      exact own
  | @restore layout batch restored current ran =>
      obtain ⟨⟨queue, restoredEntries⟩, entries, rfl⟩ := Option.map_eq_some_iff.mp ran
      have unmined := Shared.unmined_of_not_mayBeMined once.submitted current rfl rfl
      have distinct := once.unique
      rw [Shared.waiting, unmined, List.map_append] at distinct
      apply Shared.restoreEntries_ownPriorities own _ entries
      exact (List.perm_append_comm.map BatchQueueEntry.key).nodup_iff.mp distinct.of_append_left
  | flush =>
      intro stored member
      cases member
  | flushAndReset labelled flushing =>
      intro stored member
      rw [Shared.afterFlush_batchQueue] at member
      cases member
  | @insertNonpaying origin address nonce flushing configured =>
      rw [Shared.afterFlush_batchQueue]
      exact own
  | removeUserProofs polled =>
      exact own.of_subset fun _ member => (List.mem_filter.mp member).1
  | _ => exact own

/-- What holds in the runs in which no proof is submitted twice. -/
structure PaysOnce (system : System) : Prop where
  once : ChargedOnce system
  priorities : OwnPriorities system.shared.batchQueue
  batch : ∀ batch stage, system.shared.batch = some (batch, stage) →
    ∀ entry ∈ batch.entries, batch.call.feePerProof ≤ entry.maxFee
  transactions : ∀ transaction ∈ system.shared.chain.transactions,
    ∀ entry ∈ transaction.entries, transaction.call.feePerProof ≤ entry.maxFee

theorem paysOnce_step (pays : PaysOnce system) (guarded : SubmitsOnce system label)
    (stepped : (batcher environment config).step system label = some next) : PaysOnce next where
  once := chargedOnce_step pays.once guarded stepped
  priorities := (step_change stepped).ownPriorities pays.once pays.priorities guarded.2
  batch batch stage current := by
    rcases (step_change stepped).batch_origin current with
      ⟨earlier, before⟩ | ⟨gasPrice, ⟨extracted⟩, call⟩
    · exact pays.batch batch earlier before
    · rw [call, Config.createNewTaskCall, Config.feeParams_feePerProof, batchLeaves_length]
      exact extracted.fee_le_maxFee pays.priorities
  transactions transaction member := by
    rcases (step_change stepped).mem_transactions member with
      before | ⟨batch, stage, answer, current, -, -, entries, call⟩
    · exact pays.transactions transaction before
    · rw [entries, call]
      exact pays.batch batch stage current

theorem paysOnce_initial {chain : Chain} (fresh : chain.Fresh)
    (disabledVerifiers lastUploadedBatchBlock : Nat) :
    PaysOnce (initialSystem config chain disabledVerifiers lastUploadedBatchBlock) := by
  obtain ⟨userStates, cells, nextRef, equation⟩ := Shared.initial_eq config chain
  refine ⟨chargedOnce_initial fresh _ _, ?_, ?_, ?_⟩
  · intro stored member
    simp only [initialSystem, equation] at member
    cases member
  · intro batch stage current
    simp only [initialSystem, equation] at current
    cases current
  · intro transaction member
    simp only [initialSystem, equation, Shared.empty, Chain.transactions, fresh.pending,
      fresh.included] at member
    cases member

/-! ## What the signed messages cover -/

/-- If every batch takes at most the `max_fee` of its entries from their
senders, the entries of the user offered all it paid. -/
theorem Chain.paidBy_le_offeredBy {chain : Chain}
    (submitters : ∀ transaction ∈ chain.transactions,
      transaction.call.proofSubmitters = transaction.entries.map BatchQueueEntry.sender)
    (within : ∀ transaction ∈ chain.transactions,
      ∀ entry ∈ transaction.entries, transaction.call.feePerProof ≤ entry.maxFee) :
    chain.paidBy user ≤ offeredBy user chain.charged := by
  have takes : ∀ transaction ∈ chain.included.filter Prod.snd,
      transaction.1.takes user ≤ offeredBy user transaction.1.entries := by
    intro transaction member
    have sent : transaction.1 ∈ chain.transactions :=
      List.mem_append_right _ (List.mem_map_of_mem (List.mem_filter.mp member).1)
    rw [Transaction.takes, submitters _ sent]
    exact fee_mul_count_le_offeredBy (within _ sent) user
  rw [paidBy, charged]
  generalize chain.included.filter Prod.snd = transactions at takes
  induction transactions with
  | nil => exact Nat.le_refl _
  | cons transaction rest induction =>
      rw [List.map_cons, List.sum_cons, List.flatMap_cons, offeredBy_append]
      apply Nat.add_le_add (takes _ List.mem_cons_self)
      exact induction fun other member => takes other (List.mem_cons_of_mem _ member)

/-- Entries of one sender with distinct nonces go back to distinct messages
that offer as much. -/
theorem exists_used {signed : List NoncedVerificationData} {entries : List BatchQueueEntry}
    (distinct : (entries.map BatchQueueEntry.key).Nodup)
    (authorized : ∀ entry ∈ entries, entry.sender = user →
      ∃ data ∈ signed, data.Authorizes environment config entry) :
    ∃ used : List NoncedVerificationData,
      (∀ data ∈ used, data ∈ signed ∧ data.chainId = config.chainId ∧
        data.paymentServiceAddr = config.paymentServiceAddr ∧
        ∃ entry ∈ entries, entry.sender = user ∧ data.nonce = entry.nonce) ∧
      (used.map NoncedVerificationData.nonce).Nodup ∧
      (used.map NoncedVerificationData.maxFee).sum = offeredBy user entries := by
  induction entries with
  | nil =>
      refine ⟨[], ?_, List.nodup_nil, rfl⟩
      intro data member
      cases member
  | cons entry rest induction =>
      rw [List.map_cons, List.nodup_cons] at distinct
      obtain ⟨fresh, restDistinct⟩ := distinct
      obtain ⟨used, sound, nonces, fees⟩ := induction restDistinct fun other member =>
        authorized other (List.mem_cons_of_mem _ member)
      have later : ∀ data ∈ used, data ∈ signed ∧ data.chainId = config.chainId ∧
          data.paymentServiceAddr = config.paymentServiceAddr ∧
          ∃ other ∈ entry :: rest, other.sender = user ∧ data.nonce = other.nonce := by
        intro data member
        obtain ⟨isSigned, chainId, contract, other, inRest, own, nonce⟩ := sound data member
        exact ⟨isSigned, chainId, contract, other, List.mem_cons_of_mem _ inRest, own, nonce⟩
      by_cases own : entry.sender = user
      · obtain ⟨data, isSigned, authorizes⟩ := authorized entry List.mem_cons_self own
        refine ⟨data :: used, ?_, ?_, ?_⟩
        · intro other member
          rcases List.mem_cons.mp member with rfl | inUsed
          · exact ⟨isSigned, authorizes.chainId, authorizes.paymentServiceAddr, entry,
              List.mem_cons_self, own, authorizes.nonce⟩
          · exact later other inUsed
        · rw [List.map_cons, List.nodup_cons]
          refine ⟨?_, nonces⟩
          intro repeated
          obtain ⟨other, inUsed, sameNonce⟩ := List.mem_map.mp repeated
          obtain ⟨-, -, -, stored, inRest, ownStored, nonce⟩ := sound other inUsed
          apply fresh
          have sameKey : stored.key = entry.key := by
            rw [BatchQueueEntry.key, BatchQueueEntry.key, ownStored, own, ← nonce, sameNonce,
              authorizes.nonce]
          rw [← sameKey]
          exact List.mem_map_of_mem inRest
        · rw [List.map_cons, List.sum_cons, fees, authorizes.maxFee, offeredBy, offeredBy,
            List.filter_cons_of_pos (by simpa using own), List.map_cons, List.sum_cons]
      · refine ⟨used, later, nonces, ?_⟩
        rw [fees, offeredBy, offeredBy, List.filter_cons_of_neg (by simpa using own)]

/-- In every run whose steps meet `SubmitsOnce`, what a user whose signatures are
not forged has paid is covered by messages that it signed for this chain and
this contract, each with a nonce of its own and at most its `max_fee`. -/
theorem payments_within_signed (environment : Environment) (config : Config) (chain : Chain)
    (fresh : chain.Fresh) (disabledVerifiers lastUploadedBatchBlock : Nat)
    (recover : Bytes32 → Signature → Option Address)
    (verifies : ∀ message, environment.verifySignature message =
      message.verifySignature environment.keccak recover)
    (user : Address) (pays : config.nonpayingReplacementAddr ≠ some user)
    (ordinary : user ≠ chain.paymentService.alignedLayerServiceManager)
    (signed : List NoncedVerificationData) (labels : List Label) (finish : System)
    (signedRange : ∀ data ∈ signed, data.InRange)
    (receivedRange : ∀ message ∈ labels.flatMap Label.received, message.verificationData.InRange)
    (free : Set.InjOn environment.keccak
      {bytes | ∃ data ∈ signed ++
          (labels.flatMap Label.received).map SubmitProofMessage.verificationData,
        bytes ∈ data.signingMessages environment.keccak})
    (unforged : ∀ message ∈ labels.flatMap Label.received,
      recover (message.verificationData.encodeEip712 environment.keccak) message.signature =
        some user →
      ∃ data ∈ signed, data.encodeEip712 environment.keccak =
        message.verificationData.encodeEip712 environment.keccak)
    (meets : (batcher environment config).Meets SubmitsOnce
      (initialSystem config chain disabledVerifiers lastUploadedBatchBlock) labels)
    (ran : (batcher environment config).run
      (initialSystem config chain disabledVerifiers lastUploadedBatchBlock) labels =
        some finish) :
    ∃ used : List NoncedVerificationData,
      (∀ data ∈ used, data ∈ signed ∧ data.chainId = config.chainId ∧
        data.paymentServiceAddr = config.paymentServiceAddr ∧
        ∃ entry ∈ finish.shared.chain.charged, entry.sender = user ∧ data.nonce = entry.nonce) ∧
      (used.map NoncedVerificationData.nonce).Nodup ∧
      chain.userBalance user + deposited user labels ≤
        finish.shared.chain.userBalance user + withdrawn user labels +
          (used.map NoncedVerificationData.maxFee).sum := by
  have attested := allAttested_run
    (allAttested_initial fresh disabledVerifiers lastUploadedBatchBlock) ran
  rw [List.nil_append] at attested
  have paysOnce : PaysOnce finish := by
    apply Machine.run_preserves _ (paysOnce_initial fresh _ _) meets ran
    intro state next label invariant guarded stepped
    exact paysOnce_step invariant guarded stepped
  have distinct : (finish.shared.chain.charged.map BatchQueueEntry.key).Nodup := by
    have unique := paysOnce.once.unique
    rw [List.map_append] at unique
    exact unique.of_append_right
  have authorized : ∀ entry ∈ finish.shared.chain.charged, entry.sender = user →
      ∃ data ∈ signed, data.Authorizes environment config entry := by
    intro entry member own
    obtain ⟨transaction, included, inEntries⟩ := List.mem_flatMap.mp member
    have sent : transaction.1 ∈ finish.shared.chain.transactions :=
      List.mem_append_right _ (List.mem_map_of_mem (List.mem_filter.mp included).1)
    exact ((attested.transactions _ sent).attested entry inEntries).authorized verifies pays
      signedRange receivedRange free unforged own
  obtain ⟨used, sound, nonces, fees⟩ := exists_used distinct authorized
  refine ⟨used, sound, nonces, ?_⟩
  obtain ⟨userStates, cells, nextRef, equation⟩ := Shared.initial_eq config chain
  have starts : (initialSystem config chain disabledVerifiers
      lastUploadedBatchBlock).shared.chain = chain := by
    simp only [initialSystem, equation, Shared.empty]
  have nothingPaid : chain.paidBy user = 0 := by
    rw [Chain.paidBy, fresh.included]
    rfl
  have ledger := run_ledger (starts.symm ▸ ordinary) ran
  rw [starts, nothingPaid, Nat.add_zero] at ledger
  calc chain.userBalance user + deposited user labels
      = finish.shared.chain.userBalance user + withdrawn user labels +
          finish.shared.chain.paidBy user := by omega
    _ ≤ finish.shared.chain.userBalance user + withdrawn user labels +
          offeredBy user finish.shared.chain.charged := by
      apply Nat.add_le_add_left
      exact Chain.paidBy_le_offeredBy
        (fun transaction sent => (attested.transactions transaction sent).proofSubmitters)
        paysOnce.transactions
    _ = finish.shared.chain.userBalance user + withdrawn user labels +
          (used.map NoncedVerificationData.maxFee).sum := by rw [fees]

/-- The first of the two users then deposits, and takes a part back. -/
def Sample.ownCalls : List Label :=
  [.userCall (.deposit 1 500), .userCall (.unlock 1 100), .userCall (.withdraw 1 1000 3700)]

theorem Sample.received_ownCalls : (Sample.twoUsers ++ Sample.ownCalls).flatMap Label.received =
    Sample.twoUsers.flatMap Label.received := by
  rw [List.flatMap_append]
  exact List.append_nil _

theorem payments_within_signed_ownCalls :
    ∃ finish, (batcher Sample.hashingEnvironment (Sample.config 4)).run
        (Sample.system 4 100000000) (Sample.twoUsers ++ Sample.ownCalls) = some finish ∧
      ∃ used : List NoncedVerificationData,
        (∀ data ∈ used, data ∈ Sample.signedByFirst) ∧
        (used.map NoncedVerificationData.nonce).Nodup ∧
        100000000 + 500 ≤ finish.shared.chain.userBalance 1 + 1000 +
          (used.map NoncedVerificationData.maxFee).sum := by
  have runs : ((batcher Sample.hashingEnvironment (Sample.config 4)).run
      (Sample.system 4 100000000) (Sample.twoUsers ++ Sample.ownCalls)).isSome = true := by
    decide +kernel
  obtain ⟨finish, ran⟩ := Option.isSome_iff_exists.mp runs
  refine ⟨finish, ran, ?_⟩
  obtain ⟨used, sound, nonces, covers⟩ := payments_within_signed Sample.hashingEnvironment
    (Sample.config 4) (Sample.chain 100000000) ⟨rfl, rfl⟩ 0 0 Sample.recover (fun _ => rfl) 1
    (by decide) (by decide) Sample.signedByFirst (Sample.twoUsers ++ Sample.ownCalls) finish
    (by decide +kernel) (by rw [Sample.received_ownCalls]; decide +kernel)
    (by rw [Sample.received_ownCalls]; exact Sample.injOn_twoUsers)
    (by rw [Sample.received_ownCalls]; exact Sample.unforged_twoUsers)
    (by decide +kernel) ran
  exact ⟨used, fun data member => (sound data member).1, nonces, covers⟩

end AlignedLayer
