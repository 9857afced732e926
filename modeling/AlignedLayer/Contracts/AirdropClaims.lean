import AlignedLayer.Contracts.AlignedLayerServiceManager
import AlignedLayer.Contracts.ClaimableAirdrop
import AlignedLayer.Library.CollisionFree
import AlignedLayer.Library.Keccak256
import Mathlib.Algebra.BigOperators.Group.Finset.Basic

/-!
# Every approval is paid once

A successful claim marks leaves that were not marked, each of them once, and
moves the sum of their amounts.  Over a run the marked leaves are therefore
the leaves of the paid approvals.
-/

namespace AlignedLayer

theorem U256.toBytes_injective : Function.Injective U256.toBytes := by
  intro left right same
  apply BitVec.eq_of_getLsbD_eq
  intro position bound
  have index : 31 - position / 8 < 32 := by omega
  have bytes : left.toBytes[31 - position / 8] = right.toBytes[31 - position / 8] := by
    rw [same]
  simp only [U256.toBytes, Vector.getElem_ofFn] at bytes
  rw [show 31 - (31 - position / 8) = position / 8 by omega] at bytes
  exact testBit_eq_of_byte_eq bytes

namespace ClaimableAirdrop

variable {keccak : Bytes → Bytes32} {verify : List Bytes32 → Bytes32 → Bytes32 → Bool}
  {state next : State} {transaction : Transaction}

/-! ## What a call asks for -/

/-- A stage of a batch, as an approval of the sender with its proof. -/
def stageOf (sender : Address) (stage : (U256 × U256) × List Bytes32) :
    Approval × List Bytes32 :=
  (⟨sender, stage.1.1, stage.1.2⟩, stage.2)

/-- The approvals of a call with their proofs, in the order they are checked. -/
def Transaction.stages (transaction : Transaction) : List (Approval × List Bytes32) :=
  match transaction.call with
  | .claim amount validFrom merkleProof => [(⟨transaction.sender, amount, validFrom⟩, merkleProof)]
  | .claimBatch amounts validFroms merkleProofs =>
      ((amounts.zip validFroms).zip merkleProofs).map (stageOf transaction.sender)
  | .updateMerkleRoot _ | .extendClaimPeriod _ | .pause | .unpause => []

def Transaction.approvals (transaction : Transaction) : List Approval :=
  transaction.stages.map Prod.fst

def Transaction.IsClaim (transaction : Transaction) : Prop :=
  match transaction.call with
  | .claim _ _ _ | .claimBatch _ _ _ => True
  | .updateMerkleRoot _ | .extendClaimPeriod _ | .pause | .unpause => False

/-- The approvals that are paid in a run. -/
def paid (keccak : Bytes → Bytes32) (verify : List Bytes32 → Bytes32 → Bytes32 → Bool) :
    State → List Transaction → List Approval
  | _, [] => []
  | state, transaction :: transactions =>
      (match execute keccak verify state transaction with
        | .ok _ => transaction.approvals
        | .error _ => []) ++
        paid keccak verify (transact keccak verify state transaction) transactions

def amountTo (account : Address) (approvals : List Approval) : Nat :=
  ((approvals.filter fun approval => approval.account = account).map fun approval =>
    approval.amount.toNat).sum

/-- What the token has moved to an account. -/
def State.received (account : Address) (state : State) : Nat :=
  ((state.transfers.filter fun transfer => transfer.1 = account).map Prod.snd).sum

/-! ## The bytes of a leaf -/

theorem Approval.encode_injective : Function.Injective Approval.encode := by
  intro left right same
  obtain ⟨front, validFrom⟩ := List.append_inj' same (by simp)
  obtain ⟨front, amount⟩ := List.append_inj' front (by simp)
  obtain ⟨-, account⟩ := List.append_inj' front (by simp)
  have sameAccount := Address.toBytes_injective (Vector.toList_inj.mp account)
  have sameAmount := U256.toBytes_injective (Vector.toList_inj.mp amount)
  have sameValidFrom := U256.toBytes_injective (Vector.toList_inj.mp validFrom)
  cases left
  cases right
  simp_all

/-- The two messages that are hashed for a leaf. -/
def Approval.messages (keccak : Bytes → Bytes32) (approval : Approval) : List Bytes :=
  [approval.encode, (keccak approval.encode).toList]

theorem Approval.leaf_injOn {approvals : List Approval}
    (free : Set.InjOn keccak {message | message ∈ approvals.flatMap (Approval.messages keccak)}) :
    Set.InjOn (Approval.leaf keccak) {approval | approval ∈ approvals} := by
  intro left leftMember right rightMember same
  have inMessages : ∀ {approval : Approval} {message : Bytes}, approval ∈ approvals →
      message ∈ approval.messages keccak →
      message ∈ approvals.flatMap (Approval.messages keccak) :=
    fun member isMessage => List.mem_flatMap.mpr ⟨_, member, isMessage⟩
  have outer : (keccak left.encode).toList = (keccak right.encode).toList :=
    free (inMessages leftMember (by simp [Approval.messages]))
      (inMessages rightMember (by simp [Approval.messages])) same
  have inner : left.encode = right.encode :=
    free (inMessages leftMember (by simp [Approval.messages]))
      (inMessages rightMember (by simp [Approval.messages])) (Vector.toList_inj.mp outer)
  exact Approval.encode_injective inner

/-! ## What a call does -/

/-- The leaves of the approvals were unmarked, each occurs once, and they are
marked now. -/
structure Marks (keccak : Bytes → Bytes32) (approvals : List Approval) (state next : State) :
    Prop where
  marked : ∀ leaf, next.hasClaimed leaf = true ↔
    state.hasClaimed leaf = true ∨ leaf ∈ approvals.map (Approval.leaf keccak)
  unmarked : ∀ leaf ∈ approvals.map (Approval.leaf keccak), state.hasClaimed leaf = false
  nodup : (approvals.map (Approval.leaf keccak)).Nodup
  rest : next = { state with hasClaimed := next.hasClaimed }

theorem Marks.nil (state : State) : Marks keccak [] state state where
  marked leaf := by simp
  unmarked leaf member := by cases member
  nodup := List.nodup_nil
  rest := rfl

theorem Marks.cons {approval : Approval} {approvals : List Approval} {middle : State}
    (first : Marks keccak [approval] state middle) (later : Marks keccak approvals middle next) :
    Marks keccak (approval :: approvals) state next where
  marked leaf := by
    rw [later.marked, first.marked]
    simp [or_assoc]
  unmarked leaf member := by
    rcases List.mem_cons.mp member with rfl | rest
    · exact first.unmarked _ List.mem_cons_self
    · have unmarked := later.unmarked leaf rest
      cases marked : state.hasClaimed leaf with
      | false => rfl
      | true =>
          rw [(first.marked leaf).mpr (.inl marked)] at unmarked
          cases unmarked
  nodup := by
    rw [List.map_cons, List.nodup_cons]
    refine ⟨?_, later.nodup⟩
    intro again
    have unmarked := later.unmarked _ again
    rw [(first.marked _).mpr (.inr List.mem_cons_self)] at unmarked
    cases unmarked
  rest := by
    rw [later.rest, first.rest]

theorem require_eq_ok {condition : Prop} [Decidable condition] {reason : Revert}
    {result : Unit} : require condition reason = .ok result ↔ condition := by
  rw [require]
  split <;> simp [*]

/-- A checked stage is open and its proof verifies. -/
structure StageVerified (keccak : Bytes → Bytes32)
    (verify : List Bytes32 → Bytes32 → Bytes32 → Bool) (timestamp : U256) (root : Bytes32)
    (stage : Approval × List Bytes32) : Prop where
  validFrom : stage.1.validFrom ≤ timestamp
  verifies : verify stage.2 root (stage.1.leaf keccak) = true

theorem verifyAndMark_eq_ok_iff {timestamp : U256} {approval : Approval}
    {merkleProof : List Bytes32} :
    verifyAndMark keccak verify timestamp approval merkleProof state = .ok next ↔
      (StageVerified keccak verify timestamp state.claimMerkleRoot (approval, merkleProof) ∧
        state.hasClaimed (approval.leaf keccak) = false) ∧
      next = { state with
        hasClaimed := Function.update state.hasClaimed (approval.leaf keccak) true } := by
  simp only [verifyAndMark, bind_eq_ok, require_eq_ok, pure, Except.pure, Except.ok.injEq]
  constructor
  · rintro ⟨-, validFrom, -, unclaimed, -, verifies, rfl⟩
    exact ⟨⟨⟨validFrom, verifies⟩, Bool.eq_false_of_not_eq_true unclaimed⟩, rfl⟩
  · rintro ⟨⟨verified, unclaimed⟩, rfl⟩
    refine ⟨(), verified.validFrom, (), ?_, (), verified.verifies, rfl⟩
    rw [unclaimed]
    exact Bool.false_ne_true

theorem verifyAndMark_ok {timestamp : U256} {approval : Approval} {merkleProof : List Bytes32}
    (marked : verifyAndMark keccak verify timestamp approval merkleProof state = .ok next) :
    StageVerified keccak verify timestamp state.claimMerkleRoot (approval, merkleProof) ∧
      Marks keccak [approval] state next := by
  obtain ⟨⟨verified, unclaimed⟩, rfl⟩ := verifyAndMark_eq_ok_iff.mp marked
  refine ⟨verified, ?_, ?_, List.nodup_singleton _, rfl⟩
  · intro leaf
    by_cases same : leaf = approval.leaf keccak
    · simp [same]
    · simp [same]
  · intro leaf member
    rw [List.mem_singleton.mp member]
    exact unclaimed

theorem claimStages_ok {sender : Address} {timestamp : U256}
    {stages : List ((U256 × U256) × List Bytes32)} {totalClaimable total : Nat}
    (claimed : claimStages keccak verify sender timestamp stages totalClaimable state =
      .ok (next, total)) :
    (∀ stage ∈ stages.map (stageOf sender),
      StageVerified keccak verify timestamp state.claimMerkleRoot stage) ∧
      Marks keccak ((stages.map (stageOf sender)).map Prod.fst) state next ∧
      total = totalClaimable + (((stages.map (stageOf sender)).map Prod.fst).map fun approval =>
        approval.amount.toNat).sum := by
  induction stages generalizing totalClaimable state with
  | nil =>
      cases claimed
      exact ⟨fun _ member => (by cases member), Marks.nil _, rfl⟩
  | cons stage stages induction =>
      obtain ⟨⟨amount, validFrom⟩, merkleProof⟩ := stage
      simp only [claimStages, bind_eq_ok, require_eq_ok] at claimed
      obtain ⟨middle, marked, -, -, later⟩ := claimed
      obtain ⟨verified, marks⟩ := verifyAndMark_ok marked
      obtain ⟨allVerified, allMarks, totals⟩ := induction later
      refine ⟨?_, marks.cons allMarks, ?_⟩
      · intro stage member
        rcases List.mem_cons.mp member with rfl | rest
        · exact verified
        · have verifiedLater := allVerified stage rest
          rw [marks.rest] at verifiedLater
          exact verifiedLater
      · rw [totals]
        simp only [List.map_cons, List.sum_cons, stageOf]
        omega

/-- What a successful call does. -/
structure Effect (keccak : Bytes → Bytes32) (verify : List Bytes32 → Bytes32 → Bytes32 → Bool)
    (transaction : Transaction) (state next : State) : Prop where
  marked : ∀ leaf, next.hasClaimed leaf = true ↔
    state.hasClaimed leaf = true ∨ leaf ∈ transaction.approvals.map (Approval.leaf keccak)
  unmarked : ∀ leaf ∈ transaction.approvals.map (Approval.leaf keccak),
    state.hasClaimed leaf = false
  nodup : (transaction.approvals.map (Approval.leaf keccak)).Nodup
  received : ∀ account,
    next.received account = state.received account + amountTo account transaction.approvals
  isOpen : transaction.IsClaim →
    state.paused = false ∧ transaction.timestamp ≤ state.limitTimestampToClaim
  verified : ∀ stage ∈ transaction.stages,
    StageVerified keccak verify transaction.timestamp state.claimMerkleRoot stage
  limit : state.limitTimestampToClaim ≤ next.limitTimestampToClaim

theorem received_append (account recipient : Address) (amount : Nat) (state : State) :
    State.received account { state with transfers := state.transfers ++ [(recipient, amount)] } =
      state.received account + if recipient = account then amount else 0 := by
  simp only [State.received, List.filter_append, List.map_append, List.sum_append]
  split <;> simp [*]

theorem amountTo_of_sender {sender : Address} {approvals : List Approval}
    (own : ∀ approval ∈ approvals, approval.account = sender) (account : Address) :
    amountTo account approvals =
      if sender = account then (approvals.map fun approval => approval.amount.toNat).sum else 0 := by
  rw [amountTo]
  split
  case isTrue same =>
    have all : (approvals.filter fun approval => approval.account = account) = approvals := by
      rw [List.filter_eq_self]
      intro approval member
      exact decide_eq_true ((own approval member).trans same)
    rw [all]
  case isFalse differs =>
    have none : (approvals.filter fun approval => approval.account = account) = [] := by
      rw [List.filter_eq_nil_iff]
      intro approval member isAccount
      exact differs ((own approval member).symm.trans (of_decide_eq_true isAccount))
    rw [none]
    rfl

theorem approvals_account {approval : Approval} (member : approval ∈ transaction.approvals) :
    approval.account = transaction.sender := by
  obtain ⟨stage, stageMember, rfl⟩ := List.mem_map.mp member
  unfold Transaction.stages at stageMember
  split at stageMember
  case h_1 =>
    rw [List.mem_singleton.mp stageMember]
  case h_2 =>
    obtain ⟨original, -, rfl⟩ := List.mem_map.mp stageMember
    rfl
  case h_3 | h_4 | h_5 | h_6 => cases stageMember

/-- Marked stages of the sender, and the transfer of their total. -/
theorem effect_of_marks {marked : State} (isOpen : transaction.IsClaim →
      state.paused = false ∧ transaction.timestamp ≤ state.limitTimestampToClaim)
    (verified : ∀ stage ∈ transaction.stages,
      StageVerified keccak verify transaction.timestamp state.claimMerkleRoot stage)
    (marks : Marks keccak transaction.approvals state marked) {total : Nat}
    (totals : total = (transaction.approvals.map fun approval => approval.amount.toNat).sum)
    (transferred : safeTransferFrom transaction.transferSucceeds transaction.sender total marked =
      .ok next) : Effect keccak verify transaction state next := by
  simp only [safeTransferFrom, bind_eq_ok, pure, Except.pure, Except.ok.injEq] at transferred
  obtain ⟨-, -, rfl⟩ := transferred
  refine ⟨marks.marked, marks.unmarked, marks.nodup, ?_, isOpen, verified, ?_⟩
  · intro account
    rw [received_append, amountTo_of_sender (fun _ => approvals_account), totals, marks.rest]
    rfl
  · rw [marks.rest]
    exact BitVec.le_refl _

/-- A call of the owner pays nothing. -/
theorem effect_of_noStages (noStages : transaction.stages = []) (noClaim : ¬ transaction.IsClaim)
    (claimed : next.hasClaimed = state.hasClaimed) (transfers : next.transfers = state.transfers)
    (limit : state.limitTimestampToClaim ≤ next.limitTimestampToClaim) :
    Effect keccak verify transaction state next := by
  have noApprovals : transaction.approvals = [] := by
    rw [Transaction.approvals, noStages]
    rfl
  refine ⟨?_, ?_, ?_, ?_, fun isClaim => absurd isClaim noClaim, ?_, limit⟩
  · intro leaf
    simp [claimed, noApprovals]
  · intro leaf member
    rw [noApprovals] at member
    cases member
  · rw [noApprovals]
    exact List.nodup_nil
  · intro account
    simp [State.received, transfers, noApprovals, amountTo]
  · intro stage member
    rw [noStages] at member
    cases member

theorem execute_effect (executed : execute keccak verify state transaction = .ok next) :
    Effect keccak verify transaction state next := by
  obtain ⟨sender, timestamp, transferSucceeds, call⟩ := transaction
  cases call with
  | claim amount validFrom merkleProof =>
      simp only [execute, claim, bind_eq_ok, require_eq_ok, Bool.not_eq_true] at executed
      obtain ⟨-, unpaused, -, inTime, marked, checked, transferred⟩ := executed
      obtain ⟨verified, marks⟩ := verifyAndMark_ok checked
      apply effect_of_marks (fun _ => ⟨unpaused, inTime⟩) _ marks (by simp [Transaction.approvals,
        Transaction.stages]) transferred
      intro stage member
      rw [List.mem_singleton.mp member]
      exact verified
  | claimBatch amounts validFroms merkleProofs =>
      simp only [execute, claimBatch, bind_eq_ok, require_eq_ok, Bool.not_eq_true, Prod.exists]
        at executed
      obtain ⟨-, unpaused, -, inTime, -, -, marked, total, staged, -, -, transferred⟩ := executed
      obtain ⟨verified, marks, totals⟩ := claimStages_ok staged
      rw [Nat.zero_add] at totals
      exact effect_of_marks (fun _ => ⟨unpaused, inTime⟩) verified marks totals transferred
  | updateMerkleRoot newRoot =>
      simp only [execute, updateMerkleRoot, bind_eq_ok, pure, Except.pure, Except.ok.injEq]
        at executed
      obtain ⟨-, -, -, -, -, -, rfl⟩ := executed
      exact effect_of_noStages rfl id rfl rfl (BitVec.le_refl _)
  | extendClaimPeriod newTimestamp =>
      simp only [execute, extendClaimPeriod, bind_eq_ok, require_eq_ok, pure, Except.pure,
        Except.ok.injEq] at executed
      obtain ⟨-, -, -, -, -, later, rfl⟩ := executed
      exact effect_of_noStages rfl id rfl rfl (BitVec.le_of_lt later.1)
  | pause =>
      simp only [execute, pause, bind_eq_ok, pure, Except.pure, Except.ok.injEq] at executed
      obtain ⟨-, -, -, -, rfl⟩ := executed
      exact effect_of_noStages rfl id rfl rfl (BitVec.le_refl _)
  | unpause =>
      simp only [execute, unpause, bind_eq_ok, pure, Except.pure, Except.ok.injEq] at executed
      obtain ⟨-, -, -, -, rfl⟩ := executed
      exact effect_of_noStages rfl id rfl rfl (BitVec.le_refl _)

/-! ## Whole runs -/

theorem transact_of_error {reason : Revert}
    (failed : execute keccak verify state transaction = .error reason) :
    transact keccak verify state transaction = state := by
  rw [transact, failed]

theorem transact_of_ok (executed : execute keccak verify state transaction = .ok next) :
    transact keccak verify state transaction = next := by
  rw [transact, executed]

/-- The marked leaves are those of the paid approvals, which are distinct, and
everybody received what these say. -/
structure Settled (keccak : Bytes → Bytes32) (paidApprovals : List Approval) (state : State) :
    Prop where
  marked : ∀ leaf, state.hasClaimed leaf = true ↔
    leaf ∈ paidApprovals.map (Approval.leaf keccak)
  nodup : (paidApprovals.map (Approval.leaf keccak)).Nodup
  received : ∀ account, state.received account = amountTo account paidApprovals

theorem amountTo_append (account : Address) (first later : List Approval) :
    amountTo account (first ++ later) = amountTo account first + amountTo account later := by
  simp [amountTo]

theorem Settled.execute {paidApprovals : List Approval}
    (settled : Settled keccak paidApprovals state)
    (executed : execute keccak verify state transaction = .ok next) :
    Settled keccak (paidApprovals ++ transaction.approvals) next := by
  have effect := execute_effect executed
  constructor
  case marked =>
    intro leaf
    rw [effect.marked, settled.marked, List.map_append, List.mem_append]
  case nodup =>
    rw [List.map_append, List.nodup_append']
    refine ⟨settled.nodup, effect.nodup, ?_⟩
    intro leaf old new
    have unmarked := effect.unmarked leaf new
    rw [(settled.marked leaf).mpr old] at unmarked
    cases unmarked
  case received =>
    intro account
    rw [effect.received, settled.received, amountTo_append]

theorem Settled.run {paidApprovals : List Approval} (settled : Settled keccak paidApprovals state)
    (transactions : List Transaction) :
    Settled keccak (paidApprovals ++ paid keccak verify state transactions)
      (run keccak verify state transactions) := by
  induction transactions generalizing state paidApprovals with
  | nil =>
      rw [paid, List.append_nil]
      exact settled
  | cons transaction transactions induction =>
      rw [paid, ClaimableAirdrop.run, List.foldl_cons, ← ClaimableAirdrop.run,
        ← List.append_assoc]
      cases executed : ClaimableAirdrop.execute keccak verify state transaction with
      | error reason =>
          rw [transact_of_error executed, List.append_nil]
          exact induction settled
      | ok next =>
          rw [transact_of_ok executed]
          exact induction (settled.execute executed)

theorem settled_deployed (foundation : Address) : Settled keccak [] (deployed foundation) where
  marked leaf := by simp [deployed]
  nodup := List.nodup_nil
  received _ := rfl

theorem mem_of_paid {approval : Approval} {transactions : List Transaction}
    (member : approval ∈ paid keccak verify state transactions) :
    approval ∈ transactions.flatMap Transaction.approvals := by
  induction transactions generalizing state with
  | nil => cases member
  | cons transaction transactions induction =>
      rw [List.flatMap_cons]
      rw [paid] at member
      rcases List.mem_append.mp member with now | later
      · split at now
        · exact List.mem_append_left _ now
        · cases now
      · exact List.mem_append_right _ (induction later)

theorem limit_transact (state : State) (transaction : Transaction) :
    state.limitTimestampToClaim ≤
      (transact keccak verify state transaction).limitTimestampToClaim := by
  cases executed : execute keccak verify state transaction with
  | error reason =>
      rw [transact_of_error executed]
      exact BitVec.le_refl _
  | ok next =>
      rw [transact_of_ok executed]
      exact (execute_effect executed).limit

theorem limit_run (state : State) (transactions : List Transaction) :
    state.limitTimestampToClaim ≤
      (run keccak verify state transactions).limitTimestampToClaim := by
  induction transactions generalizing state with
  | nil => exact BitVec.le_refl _
  | cons transaction transactions induction =>
      exact BitVec.le_trans (limit_transact state transaction) (induction _)

/-- The approvals that some call of the run asks for. -/
def asked (transactions : List Transaction) : List Approval :=
  transactions.flatMap Transaction.approvals

/-- The distinct approvals of an account whose leaves are marked. -/
def claimedBy (keccak : Bytes → Bytes32) (transactions : List Transaction) (state : State)
    (account : Address) : Finset Approval :=
  (asked transactions).toFinset.filter fun approval =>
    approval.account = account ∧ state.hasClaimed (approval.leaf keccak) = true

theorem received_eq_sum {paidApprovals : List Approval} {transactions : List Transaction}
    (settled : Settled keccak paidApprovals state)
    (subset : ∀ approval ∈ paidApprovals, approval ∈ asked transactions)
    (injective : Set.InjOn (Approval.leaf keccak) {approval | approval ∈ asked transactions})
    (account : Address) :
    state.received account =
      ∑ approval ∈ claimedBy keccak transactions state account, approval.amount.toNat := by
  have distinct : (paidApprovals.filter fun approval => approval.account = account).Nodup :=
    (List.Nodup.of_map _ settled.nodup).filter _
  have same : claimedBy keccak transactions state account =
      (paidApprovals.filter fun approval => approval.account = account).toFinset := by
    ext approval
    simp only [claimedBy, Finset.mem_filter, List.mem_toFinset, List.mem_filter,
      decide_eq_true_eq, settled.marked]
    constructor
    · rintro ⟨isAsked, isAccount, marked⟩
      obtain ⟨other, otherMember, sameLeaf⟩ := List.mem_map.mp marked
      have same : other = approval := injective (subset other otherMember) isAsked sameLeaf
      exact ⟨same ▸ otherMember, isAccount⟩
    · rintro ⟨member, isAccount⟩
      exact ⟨subset approval member, isAccount, List.mem_map_of_mem member⟩
  rw [settled.received, amountTo, same, List.sum_toFinset _ distinct]

/-- Over every run each account receives the amounts of the distinct approvals
marked for it, no approval is paid twice, every claim was open and every stage
of it verified, the deadline only grows, and a reverted call changes nothing. -/
theorem approvals_paid_once (keccak : Bytes → Bytes32)
    (verify : List Bytes32 → Bytes32 → Bytes32 → Bool) (foundation : Address)
    (transactions : List Transaction)
    (free : Set.InjOn keccak
      {message | message ∈ (asked transactions).flatMap (Approval.messages keccak)}) :
    let final := run keccak verify (deployed foundation) transactions
    (∀ account, final.received account =
      ∑ approval ∈ claimedBy keccak transactions final account, approval.amount.toNat) ∧
    (∀ leaf, final.hasClaimed leaf = true →
      ∃ approval ∈ asked transactions, approval.leaf keccak = leaf) ∧
    (paid keccak verify (deployed foundation) transactions).Nodup ∧
    (∀ before transaction after, transactions = before ++ transaction :: after →
      let state := run keccak verify (deployed foundation) before
      (∀ next, execute keccak verify state transaction = .ok next →
        (transaction.IsClaim →
          state.paused = false ∧ transaction.timestamp ≤ state.limitTimestampToClaim) ∧
        ∀ stage ∈ transaction.stages,
          StageVerified keccak verify transaction.timestamp state.claimMerkleRoot stage) ∧
      state.limitTimestampToClaim ≤
        (transact keccak verify state transaction).limitTimestampToClaim ∧
      ∀ reason, execute keccak verify state transaction = .error reason →
        transact keccak verify state transaction = state) := by
  intro final
  have settled : Settled keccak (paid keccak verify (deployed foundation) transactions) final :=
    (settled_deployed foundation).run transactions
  refine ⟨received_eq_sum settled (fun _ => mem_of_paid) (Approval.leaf_injOn free), ?_,
    List.Nodup.of_map _ settled.nodup, ?_⟩
  · intro leaf marked
    obtain ⟨approval, member, same⟩ := List.mem_map.mp ((settled.marked leaf).mp marked)
    exact ⟨approval, mem_of_paid member, same⟩
  · intro before transaction after _ state
    refine ⟨?_, limit_transact state transaction, fun _ => transact_of_error⟩
    intro next executed
    exact ⟨(execute_effect executed).isOpen, (execute_effect executed).verified⟩

namespace Sample

def approval (validFrom : U256) : Approval :=
  { account := 1, amount := 100, validFrom := validFrom }

/-- A tree of one leaf. -/
def verifySingle (merkleProof : List Bytes32) (root leaf : Bytes32) : Bool :=
  merkleProof = [] ∧ root = leaf

/-- The owner opens the drop for one approval, which is claimed twice in one
batch, and then once. -/
def transactions : List Transaction :=
  [⟨9, 10, true, .extendClaimPeriod 50⟩,
    ⟨9, 10, true, .updateMerkleRoot ((approval 20).leaf Keccak256.keccak256)⟩,
    ⟨9, 10, true, .unpause⟩,
    ⟨1, 30, true, .claimBatch [100, 100] [20, 20] [[], []]⟩,
    ⟨1, 30, true, .claim 100 20 []⟩,
    ⟨1, 30, true, .claim 100 20 []⟩]

end Sample

theorem approvals_paid_once_repeated :
    (run Keccak256.keccak256 Sample.verifySingle (deployed 9) Sample.transactions).received 1 =
      ∑ approval ∈ claimedBy Keccak256.keccak256 Sample.transactions
        (run Keccak256.keccak256 Sample.verifySingle (deployed 9) Sample.transactions) 1,
        approval.amount.toNat := by
  have free : Set.InjOn Keccak256.keccak256 {message | message ∈
      (asked Sample.transactions).flatMap (Approval.messages Keccak256.keccak256)} := by
    refine @injOn_of_nodup _ _ _ _ ((Sample.approval 20).messages Keccak256.keccak256) ?_ ?_
    · decide +kernel
    · decide +kernel
  exact (approvals_paid_once Keccak256.keccak256 Sample.verifySingle 9 Sample.transactions free).1 1

end ClaimableAirdrop

end AlignedLayer
