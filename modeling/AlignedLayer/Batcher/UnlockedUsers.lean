import AlignedLayer.Batcher.UnlockPolling
import AlignedLayer.Batcher.Guards
import AlignedLayer.Batcher.Queued

/-!
# Unlocked users and the queue

Once a pass of the polling has gone through a `BalanceUnlocked` event, the
user should have no proof in the queue for as long as the balance stays
unlocked.  The pass skips a user whose state is locked or gone, whose balance
is not reported in time, or for whose proofs the queue is not free in time;
and a handler that checked the balance earlier, or a failed batch, may bring
proofs of the user back.
-/

namespace AlignedLayer

def Shared.HasQueued (user : Address) (shared : Shared) : Prop :=
  ∃ entry ∈ shared.batchQueue.items, entry.sender = user

instance (user : Address) (shared : Shared) : Decidable (shared.HasQueued user) :=
  inferInstanceAs (Decidable (∃ entry ∈ shared.batchQueue.items, entry.sender = user))

/-- The pass is at the last event of the user. -/
def Pass.IsLast (user : Address) (pass : Pass) : Prop :=
  pass.users.head? = some user ∧ user ∉ pass.users.tail

instance (user : Address) (pass : Pass) : Decidable (pass.IsLast user) :=
  inferInstanceAs (Decidable (_ ∧ _))

namespace UnlockPolling

/-- The pass that is going on has the property. -/
def OfPass (property : Pass → Prop) (polling : UnlockPolling) : Prop :=
  ∃ pass ∈ polling.pass, property pass

/-- A pass that covers the block is done with the user. -/
def Handled (block : Nat) (user : Address) (polling : UnlockPolling) : Prop :=
  (∃ pass ∈ polling.finished, pass.Covers block) ∨
    polling.OfPass fun pass => pass.Covers block ∧ user ∉ pass.users

instance {property : Pass → Prop} [DecidablePred property] (polling : UnlockPolling) :
    Decidable (polling.OfPass property) :=
  inferInstanceAs (Decidable (∃ pass ∈ polling.pass, property pass))

instance (block : Nat) (user : Address) (polling : UnlockPolling) :
    Decidable (polling.Handled block user) :=
  inferInstanceAs (Decidable (_ ∨ _))

end UnlockPolling

/-- The request or lock that the polling needs to go on is granted. -/
def Poll.Succeeds (user : Address) (system : System) : Poll → Prop
  | .userHasProofs => ∃ ref ∈ system.shared.userStates user,
      system.locks ref = none ∧ (system.shared.cells ref).proofsInBatch > 0
  | .userBalanceIsUnlocked answered => answered = true
  | .batchLockTimeout => False
  | .removeUserProofs => True

instance (user : Address) (system : System) (poll : Poll) :
    Decidable (poll.Succeeds user system) := by
  cases poll
  all_goals dsimp only [Poll.Succeeds]
  all_goals infer_instance

/-- The condition on a step under which the user's proofs leave the queue and
stay away: the pass does not skip the last event of a user with queued proofs,
and after it no handler queues a proof of the user and no batch puts one back. -/
def RemovesProofs (block : Nat) (user : Address) (polling : UnlockPolling) :
    PollingLabel → Prop
  | .task (.enqueue task _) => polling.Handled block user →
      polling.system.When Phase.enqueuing (fun request _ => request.addr ≠ user) task
  | .task (.restore _) => polling.Handled block user →
      polling.system.shared.OfBatch fun batch => ∀ entry ∈ batch.entries, entry.sender ≠ user
  | .poll poll => (polling.OfPass fun pass => pass.Covers block ∧ pass.IsLast user) →
      polling.system.shared.HasQueued user → poll.Succeeds user polling.system
  | _ => True

instance (block : Nat) (user : Address) (polling : UnlockPolling) (label : PollingLabel) :
    Decidable (RemovesProofs block user polling label) := by
  cases label with
  | task label =>
      apply @Label.casesOn
        (fun label => Decidable (RemovesProofs block user polling (.task label))) label
      all_goals intros
      all_goals dsimp only [RemovesProofs]
      all_goals infer_instance
  | block | startPass | poll | endPass =>
      dsimp only [RemovesProofs]
      infer_instance

variable {environment : Environment} {config : Config} {polling next : UnlockPolling}
  {block : Nat} {user : Address}

/-! ## What a step queues -/

theorem Shared.HasQueued.queued {system after : System} {label : Label}
    (stepped : (batcher environment config).step system label = some after)
    (hasQueued : after.shared.HasQueued user) :
    system.shared.HasQueued user ∨
      ∃ entry, entry.sender = user ∧ Queues environment system label entry := by
  obtain ⟨entry, member, same⟩ := hasQueued
  rcases (step_change stepped).queued member with before | queues
  · exact .inl ⟨entry, before, same⟩
  · exact .inr ⟨entry, same, queues⟩

theorem Shared.HasQueued.polled {system after : System} {poll : Poll} {polled : Address}
    (stepped : (batcher environment config).step system (poll.label polled) = some after)
    (hasQueued : after.shared.HasQueued user) : system.shared.HasQueued user := by
  rcases hasQueued.queued stepped with before | ⟨entry, same, queues⟩
  · exact before
  · cases poll <;> cases queues

/-- A guarded task queues no proof of a user who has been handled. -/
theorem Shared.HasQueued.ofTask {after : System} {label : Label}
    (stepped : (batcher environment config).step polling.system label = some after)
    (guarded : RemovesProofs block user polling (.task label))
    (handled : polling.Handled block user) (hasQueued : after.shared.HasQueued user) :
    polling.system.shared.HasQueued user := by
  rcases hasQueued.queued stepped with before | ⟨entry, same, queues⟩
  · exact before
  · cases queues with
    | enqueue running => exact absurd same ((guarded handled).running running rfl)
    | replace running stored =>
        obtain ⟨priority, member⟩ := (BatchState.getEntry_eq_some stored).1
        exact ⟨_, List.mem_map_of_mem member, same⟩
    | restore current member => exact absurd same ((guarded handled).current current _ member)

/-! ## The user at the head of a pass -/

theorem notPolling_of_notOwn {label : Label} (other : label.isOwn = false) :
    label.isPolling = false := by
  cases label <;> first | rfl | exact other

/-- The user the polling is busy with. -/
def Polling.address : Polling → Option Address
  | .idle => none
  | .hasProofs address | .unlocked address => some address

/-- The polling is busy with the first user of the pass only. -/
def PollsHead (polling : UnlockPolling) : Prop :=
  ∀ address, polling.system.polling.address = some address →
    ∃ users fromBlock toBlock, polling.pass = some ⟨fromBlock, toBlock, address :: users⟩

/-- A step of the polling asks for the given user, or ends with the user it
was busy with. -/
theorem poll_address {system after : System} {poll : Poll} {polled : Address}
    (stepped : (batcher environment config).step system (poll.label polled) = some after) :
    after.polling.address = none ∨ after.polling.address = some polled ∨
      after.polling.address = system.polling.address := by
  cases poll with
  | userHasProofs =>
      simp only [batcher, Poll.label, System.pollProofs] at stepped
      repeat' split at stepped
      all_goals cases stepped
      all_goals simp [Polling.address]
  | userBalanceIsUnlocked answered =>
      simp only [batcher, Poll.label, System.pollBalance] at stepped
      repeat' split at stepped
      all_goals cases stepped
      all_goals simp [Polling.address, *]
  | batchLockTimeout =>
      simp only [batcher, Poll.label, System.stopPolling] at stepped
      split at stepped
      all_goals cases stepped
      simp [Polling.address]
  | removeUserProofs =>
      simp only [batcher, Poll.label, System.removeUserProofs] at stepped
      repeat' split at stepped
      all_goals cases stepped
      simp [Polling.address]

/-- A user with queued proofs is done with only once they are removed. -/
theorem poll_done {system after : System} {poll : Poll}
    (busy : ∀ address, system.polling.address = some address → address = user)
    (unlocked : system.shared.chain.userIsUnlocked user = true)
    (succeeds : system.shared.HasQueued user → poll.Succeeds user system)
    (stepped : (batcher environment config).step system (poll.label user) = some after)
    (idle : after.polling = .idle) : ¬ after.shared.HasQueued user := by
  intro hasQueued
  have granted := succeeds (hasQueued.polled stepped)
  cases poll with
  | userHasProofs =>
      obtain ⟨ref, current, free⟩ := granted
      simp only [batcher, Poll.label, System.pollProofs, Option.mem_def.mp current] at stepped
      split at stepped
      · rename_i address other known found
        cases found
        rw [if_pos free] at stepped
        cases stepped
        cases idle
      · rename_i found
        cases found
      · cases stepped
  | userBalanceIsUnlocked answered =>
      cases granted
      simp only [batcher, Poll.label, System.pollBalance] at stepped
      split at stepped
      · rename_i address asked
        have same := busy address (by rw [asked]; rfl)
        rw [same, unlocked] at stepped
        cases stepped
        cases idle
      · cases stepped
  | batchLockTimeout => cases granted
  | removeUserProofs =>
      simp only [batcher, Poll.label, System.removeUserProofs] at stepped
      split at stepped
      · rename_i address asked
        split at stepped
        · cases stepped
        · cases stepped
          obtain ⟨entry, member, same⟩ := hasQueued
          have removed := busy address (by rw [asked]; rfl)
          change entry ∈ (system.shared.removeUserProofs address).batchQueue.items at member
          rw [Shared.removeUserProofs_items, List.mem_filter, removed] at member
          simp [same] at member
      · cases stepped

/-! ## A block -/

/-- What the transactions of a block leave alone, and the events they keep. -/
structure KeepsQueue (before after : UnlockPolling) : Prop where
  batchQueue : after.system.shared.batchQueue = before.system.shared.batchQueue
  polling : after.system.polling = before.system.polling
  pass : after.pass = before.pass
  finished : after.finished = before.finished
  blockNumber : after.blockNumber = before.blockNumber
  logged : before.balanceUnlocked ⊆ after.balanceUnlocked

theorem transact_keeps (polling : UnlockPolling) (call : UserCall) :
    KeepsQueue polling (polling.transact call) := by
  rw [UnlockPolling.transact]
  cases called : polling.system.userCall call with
  | none => exact ⟨rfl, rfl, rfl, rfl, rfl, List.Subset.refl _⟩
  | some system =>
      obtain ⟨chain, -, rfl⟩ := Option.map_eq_some_iff.mp called
      exact ⟨rfl, rfl, rfl, rfl, rfl, List.subset_append_left _ _⟩

theorem transactions_keep (calls : List UserCall) (polling : UnlockPolling) :
    KeepsQueue polling (calls.foldl UnlockPolling.transact polling) := by
  induction calls generalizing polling with
  | nil => exact ⟨rfl, rfl, rfl, rfl, rfl, List.Subset.refl _⟩
  | cons call calls induction =>
      have first := transact_keeps polling call
      have rest := induction (polling.transact call)
      constructor
      · exact rest.batchQueue.trans first.batchQueue
      · exact rest.polling.trans first.polling
      · exact rest.pass.trans first.pass
      · exact rest.finished.trans first.finished
      · exact rest.blockNumber.trans first.blockNumber
      · exact List.Subset.trans first.logged rest.logged

/-! ## Invariants of the polling -/

theorem pollsHead_block (calls : List UserCall) (head : PollsHead polling) :
    PollsHead (polling.block calls) := by
  intro address asked
  have keeps := transactions_keep calls { polling with blockNumber := polling.blockNumber + 1 }
  rw [UnlockPolling.block, keeps.polling] at asked
  rw [UnlockPolling.block, keeps.pass]
  exact head address asked

theorem pollsHead_step {label : PollingLabel} (head : PollsHead polling)
    (stepped : (unlockPolling environment config).step polling label = some next) :
    PollsHead next := by
  intro address asked
  cases unlockPolling_step_cases stepped with
  | @task label system other inner =>
      apply head address
      rw [← step_polling_same (notPolling_of_notOwn other) inner]
      exact asked
  | block calls => exact pollsHead_block calls head address asked
  | noAnswer => exact head address asked
  | startPass idle known =>
      obtain ⟨users, first, last, current⟩ := head address asked
      rw [idle] at current
      cases current
  | @poll poll fromBlock toBlock polled users system current inner =>
      have busy : system.polling ≠ .idle := by
        intro idle
        simp only [idle, Polling.address] at asked
        cases asked
      simp only [if_neg busy]
      refine ⟨users, fromBlock, toBlock, ?_⟩
      rcases poll_address inner with none | same | before
      · rw [none] at asked
        cases asked
      · rw [same, Option.some.injEq] at asked
        rw [asked]
      · rw [before] at asked
        obtain ⟨others, first, last, same⟩ := head address asked
        rw [current] at same
        cases same
        rfl
  | endPass current =>
      obtain ⟨users, first, last, same⟩ := head address asked
      rw [current] at same
      cases same

/-- No pass has been told of a block that is still to come. -/
def PassesBounded (polling : UnlockPolling) : Prop :=
  (∀ pass ∈ polling.pass, pass.toBlock ≤ polling.blockNumber) ∧
    ∀ pass ∈ polling.finished, pass.toBlock ≤ polling.blockNumber

theorem passesBounded_step {label : PollingLabel} (bounded : PassesBounded polling)
    (stepped : (unlockPolling environment config).step polling label = some next) :
    PassesBounded next := by
  cases unlockPolling_step_cases stepped with
  | task | noAnswer => exact bounded
  | block calls =>
      have keeps := transactions_keep calls
        { polling with blockNumber := polling.blockNumber + 1 }
      rw [PassesBounded, UnlockPolling.block, keeps.pass, keeps.finished, keeps.blockNumber]
      constructor
      · exact fun pass current => Nat.le_succ_of_le (bounded.1 pass current)
      · exact fun pass member => Nat.le_succ_of_le (bounded.2 pass member)
  | startPass idle known =>
      refine ⟨?_, bounded.2⟩
      intro pass isPass
      cases isPass
      exact known
  | @poll poll fromBlock toBlock polled users system current inner =>
      refine ⟨?_, bounded.2⟩
      intro pass isPass
      cases isPass
      exact bounded.1 ⟨fromBlock, toBlock, polled :: users⟩ current
  | endPass current =>
      constructor
      · intro pass isPass
        cases isPass
      · intro pass member
        rcases List.mem_append.mp member with before | new
        · exact bounded.2 pass before
        · cases List.mem_singleton.mp new
          exact bounded.1 _ current

/-! ## The user after the event -/

/-- Once a pass is done with the event, the user has no proof in the queue. -/
structure LeavesQueue (block : Nat) (user : Address) (polling : UnlockPolling) : Prop where
  logged : (block, user) ∈ polling.balanceUnlocked
  head : PollsHead polling
  left : polling.Handled block user → ¬ polling.system.shared.HasQueued user

theorem mem_usersOf {events : List (Nat × Address)} {pass : Pass}
    (logged : (block, user) ∈ events) (covers : pass.Covers block) :
    user ∈ UnlockPolling.usersOf pass.fromBlock pass.toBlock events := by
  rw [UnlockPolling.usersOf, List.mem_map]
  refine ⟨(block, user), ?_, rfl⟩
  rw [List.mem_filter]
  exact ⟨logged, decide_eq_true covers⟩

theorem leavesQueue_step {label : PollingLabel} (leaves : LeavesQueue block user polling)
    (unlocked : polling.system.shared.chain.userIsUnlocked user = true)
    (guarded : RemovesProofs block user polling label)
    (stepped : (unlockPolling environment config).step polling label = some next) :
    LeavesQueue block user next := by
  have head := pollsHead_step leaves.head stepped
  cases unlockPolling_step_cases stepped with
  | task other inner =>
      refine ⟨leaves.logged, head, ?_⟩
      intro handled hasQueued
      exact leaves.left handled (hasQueued.ofTask inner guarded handled)
  | block calls =>
      have keeps := transactions_keep calls
        { polling with blockNumber := polling.blockNumber + 1 }
      refine ⟨keeps.logged leaves.logged, head, ?_⟩
      rw [UnlockPolling.Handled, UnlockPolling.OfPass, Shared.HasQueued, UnlockPolling.block,
        keeps.pass, keeps.finished, keeps.batchQueue]
      exact leaves.left
  | noAnswer => exact leaves
  | startPass idle known =>
      refine ⟨leaves.logged, head, ?_⟩
      rintro (finished | ⟨pass, current, covers, done⟩)
      · exact leaves.left (.inl finished)
      · cases current
        exact absurd (mem_usersOf leaves.logged covers) done
  | @poll poll fromBlock toBlock polled users system current inner =>
      refine ⟨leaves.logged, head, ?_⟩
      rintro (finished | ⟨pass, isPass, covers, done⟩) hasQueued
      · exact leaves.left (.inl finished) (hasQueued.polled inner)
      · cases isPass
        by_cases before : user ∈ polled :: users
        · -- The pass is done with the user in this step.
          have idle : system.polling = .idle := by
            by_contra busy
            rw [if_neg busy] at done
            exact done before
          rw [if_pos idle] at done
          obtain rfl : user = polled := by
            rcases List.mem_cons.mp before with same | later
            · exact same
            · exact absurd later done
          refine poll_done ?_ unlocked ?_ inner idle hasQueued
          · intro address asked
            obtain ⟨others, first, last, same⟩ := leaves.head address asked
            rw [current] at same
            cases same
            rfl
          · exact guarded ⟨_, current, covers, rfl, done⟩
        · have handled : polling.Handled block user := .inr ⟨_, current, covers, before⟩
          exact leaves.left handled (hasQueued.polled inner)
  | endPass current =>
      refine ⟨leaves.logged, head, ?_⟩
      rintro (⟨pass, member, covers⟩ | ⟨pass, isPass, -⟩)
      · rcases List.mem_append.mp member with before | new
        · exact leaves.left (.inl ⟨pass, before, covers⟩)
        · cases List.mem_singleton.mp new
          exact leaves.left (.inr ⟨_, current, covers, List.not_mem_nil⟩)
      · cases isPass

/-- When the event is emitted, no pass knows of its block. -/
theorem leavesQueue_emitted {calls : List UserCall} (head : PollsHead polling)
    (bounded : PassesBounded polling)
    (logged : ((polling.block calls).blockNumber, user) ∈ (polling.block calls).balanceUnlocked) :
    LeavesQueue (polling.block calls).blockNumber user (polling.block calls) := by
  refine ⟨logged, pollsHead_block calls head, ?_⟩
  have keeps := transactions_keep calls { polling with blockNumber := polling.blockNumber + 1 }
  have later : (polling.block calls).blockNumber = polling.blockNumber + 1 := keeps.blockNumber
  rw [later, UnlockPolling.Handled, UnlockPolling.OfPass, UnlockPolling.block, keeps.pass,
    keeps.finished]
  rintro (⟨pass, member, -, covers⟩ | ⟨pass, current, ⟨-, covers⟩, -⟩)
  · have := bounded.2 pass member
    omega
  · have := bounded.1 pass current
    omega

/-- After a `BalanceUnlocked` event whose user's balance stays unlocked, every
state in which a pass over its block has finished has no proof of the user in
the queue. -/
theorem unlocked_users_leave_queue (environment : Environment) (config : Config) (chain : Chain)
    (disabledVerifiers lastUploadedBatchBlock blockNumber fromBlock : Nat)
    (before after : List PollingLabel) (calls : List UserCall) (emitted reached : UnlockPolling)
    (user : Address)
    (ranBefore : (unlockPolling environment config).run
      (initialPolling (initialSystem config chain disabledVerifiers lastUploadedBatchBlock)
        blockNumber fromBlock) (before ++ [.block calls]) = some emitted)
    (event : (emitted.blockNumber, user) ∈ emitted.balanceUnlocked)
    (ranAfter : (unlockPolling environment config).run emitted after = some reached)
    (unlocked : (unlockPolling environment config).Meets
      (fun polling _ => polling.system.shared.chain.userIsUnlocked user = true) emitted after)
    (removes : (unlockPolling environment config).Meets
      (RemovesProofs emitted.blockNumber user) emitted after)
    (finished : ∃ pass ∈ reached.finished, pass.Covers emitted.blockNumber) :
    ∀ entry ∈ reached.system.shared.batchQueue.items, entry.sender ≠ user := by
  rw [Machine.run_append] at ranBefore
  obtain ⟨middle, ran, last⟩ := Option.bind_eq_some_iff.mp ranBefore
  cases last
  have head : PollsHead middle := by
    refine Machine.run_invariant ?_ ?_ ran
    · exact pollsHead_step
    · intro address asked
      cases asked
  have bounded : PassesBounded middle := by
    refine Machine.run_invariant ?_ ?_ ran
    · exact passesBounded_step
    · constructor
      · intro pass current
        cases current
      · intro pass member
        cases member
  have leaves : LeavesQueue (middle.block calls).blockNumber user reached := by
    refine Machine.run_preserves ?_ (leavesQueue_emitted head bounded event) (unlocked.and removes) ranAfter
    intro polling next label invariant guarded stepped
    exact leavesQueue_step invariant guarded.1 guarded.2 stepped
  intro entry member same
  exact leaves.left (.inl finished) ⟨entry, member, same⟩

namespace Sample

/-- A user submits a proof, and unlocks the balance in the next block. -/
def proofBeforeUnlock : List PollingLabel :=
  (firstProof 0 1 0 1000000).map PollingLabel.task

/-- A pass over that block, which is told whether the balance is unlocked. -/
def passOverUnlock : List PollingLabel :=
  [.startPass (some 1), .poll .userHasProofs, .poll (.userBalanceIsUnlocked true),
    .poll .removeUserProofs, .endPass]

/-- The same when the request for the balance fails. -/
def passWithoutAnswer : List PollingLabel :=
  [.startPass (some 1), .poll .userHasProofs, .poll (.userBalanceIsUnlocked false), .endPass]

def pollingSystem : UnlockPolling :=
  initialPolling (system 10 100000000) 0 0

end Sample

theorem unlocked_users_leave_queue_sample :
    ∃ emitted reached, (unlockPolling Sample.environment (Sample.config 10)).run Sample.pollingSystem
        (Sample.proofBeforeUnlock ++ [.block [.unlock 1 0]]) = some emitted ∧
      emitted.system.shared.HasQueued 1 ∧
      (unlockPolling Sample.environment (Sample.config 10)).run emitted Sample.passOverUnlock =
        some reached ∧
      ∀ entry ∈ reached.system.shared.batchQueue.items, entry.sender ≠ 1 := by
  have found : ((unlockPolling Sample.environment (Sample.config 10)).run Sample.pollingSystem
      (Sample.proofBeforeUnlock ++ [.block [.unlock 1 0]])).any (fun emitted =>
        decide ((emitted.blockNumber, 1) ∈ emitted.balanceUnlocked ∧
          emitted.system.shared.HasQueued 1 ∧
          (unlockPolling Sample.environment (Sample.config 10)).Meets
            (fun polling _ => polling.system.shared.chain.userIsUnlocked 1 = true) emitted
            Sample.passOverUnlock ∧
          (unlockPolling Sample.environment (Sample.config 10)).Meets
            (RemovesProofs emitted.blockNumber 1) emitted Sample.passOverUnlock) &&
        ((unlockPolling Sample.environment (Sample.config 10)).run emitted
          Sample.passOverUnlock).any fun reached =>
            decide (∃ pass ∈ reached.finished, pass.Covers emitted.blockNumber)) = true := by
    decide +kernel
  obtain ⟨emitted, ranBefore, holds⟩ := (Option.any_eq_true _ _).mp found
  rw [Bool.and_eq_true, decide_eq_true_eq, Option.any_eq_true] at holds
  obtain ⟨⟨event, queued, unlocked, removes⟩, reached, ranAfter, covered⟩ := holds
  exact ⟨emitted, reached, ranBefore, queued, ranAfter,
    unlocked_users_leave_queue _ _ _ _ _ _ _ _ _ _ _ _ _ ranBefore event ranAfter unlocked
      removes (of_decide_eq_true covered)⟩

theorem unlocked_user_stays_queued :
    ∃ emitted reached, (unlockPolling Sample.environment (Sample.config 10)).run Sample.pollingSystem
        (Sample.proofBeforeUnlock ++ [.block [.unlock 1 0]]) = some emitted ∧
      (emitted.blockNumber, 1) ∈ emitted.balanceUnlocked ∧
      (unlockPolling Sample.environment (Sample.config 10)).run emitted
        Sample.passWithoutAnswer = some reached ∧
      (unlockPolling Sample.environment (Sample.config 10)).Meets
        (fun polling _ => polling.system.shared.chain.userIsUnlocked 1 = true) emitted
        Sample.passWithoutAnswer ∧
      reached.system.shared.chain.userIsUnlocked 1 = true ∧
      (∃ pass ∈ reached.finished, pass.Covers emitted.blockNumber) ∧
      ∃ entry ∈ reached.system.shared.batchQueue.items, entry.sender = 1 := by
  have found : ((unlockPolling Sample.environment (Sample.config 10)).run Sample.pollingSystem
      (Sample.proofBeforeUnlock ++ [.block [.unlock 1 0]])).any (fun emitted =>
        decide ((emitted.blockNumber, 1) ∈ emitted.balanceUnlocked ∧
          (unlockPolling Sample.environment (Sample.config 10)).Meets
            (fun polling _ => polling.system.shared.chain.userIsUnlocked 1 = true) emitted
            Sample.passWithoutAnswer) &&
        ((unlockPolling Sample.environment (Sample.config 10)).run emitted
          Sample.passWithoutAnswer).any fun reached =>
            decide (reached.system.shared.chain.userIsUnlocked 1 = true ∧
              (∃ pass ∈ reached.finished, pass.Covers emitted.blockNumber) ∧
              ∃ entry ∈ reached.system.shared.batchQueue.items, entry.sender = 1)) = true := by
    decide +kernel
  obtain ⟨emitted, ranBefore, holds⟩ := (Option.any_eq_true _ _).mp found
  rw [Bool.and_eq_true, decide_eq_true_eq, Option.any_eq_true] at holds
  obtain ⟨⟨event, unlocked⟩, reached, ranAfter, facts⟩ := holds
  have stays := of_decide_eq_true facts
  exact ⟨emitted, reached, ranBefore, event, ranAfter, unlocked, stays⟩

end AlignedLayer
