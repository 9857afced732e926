import AlignedLayer.Contracts.AirdropClaims
import AlignedLayer.Library.Erc20

/-!
# A batch of claims and single claims

`claimBatch` marks all stages and then transfers their total; single claims
transfer after each mark.  The marks do not depend on the token, so that the
two differ only by what the token says to one transfer or to many.
-/

namespace AlignedLayer.ClaimableAirdrop

/-- The airdrop with the token that it pays with. -/
structure Funded where
  airdrop : State
  token : Erc20 Address 256

/-- What the transfer of a batch is asked for. -/
def totalOf (amounts : List U256) : Nat :=
  (amounts.map BitVec.toNat).sum

section

variable (keccak : Bytes → Bytes32) (verify : List Bytes32 → Bytes32 → Bytes32 → Bool)
  (rules : Erc20.Rules Address) (airdropAddress tokenDistributor sender : Address)
  (timestamp : U256)

namespace Funded

/-- `claim` with the answer of the token. -/
def claim (amount validFrom : U256) (merkleProof : List Bytes32) (state : Funded) :
    Except Revert Funded := do
  let paid := state.token.transferFrom rules airdropAddress tokenDistributor sender amount
  let claimed ← ClaimableAirdrop.claim keccak verify sender timestamp paid.isSome amount validFrom
    merkleProof state.airdrop
  return { airdrop := claimed, token := paid.getD state.token }

/-- `claimBatch` with the answer of the token. -/
def claimBatch (amounts validFroms : List U256) (merkleProofs : List (List Bytes32))
    (state : Funded) : Except Revert Funded := do
  let paid := state.token.transferFrom rules airdropAddress tokenDistributor sender
    (BitVec.ofNat 256 (totalOf amounts))
  let claimed ← ClaimableAirdrop.claimBatch keccak verify sender timestamp paid.isSome amounts
    validFroms merkleProofs state.airdrop
  return { airdrop := claimed, token := paid.getD state.token }

/-- Single claims one after another, as long as they succeed. -/
def claims : List ((U256 × U256) × List Bytes32) → Funded → Except Revert Funded
  | [], state => .ok state
  | ((amount, validFrom), merkleProof) :: stages, state => do
      let next ← state.claim keccak verify rules airdropAddress tokenDistributor sender timestamp
        amount validFrom merkleProof
      claims stages next

/-- A call that reverts changes nothing. -/
def after (state : Funded) : Except Revert Funded → Funded
  | .ok next => next
  | .error _ => state

end Funded

/-- Every stage is open, verifies, and is not marked, also not by a stage
before it. -/
def Markable (root : Bytes32) :
    List ((U256 × U256) × List Bytes32) → (Bytes32 → Bool) → Prop
  | [], _ => True
  | stage :: stages, hasClaimed =>
      let leaf := (stageOf sender stage).1.leaf keccak
      (StageVerified keccak verify timestamp root (stageOf sender stage) ∧
          hasClaimed leaf = false) ∧
        Markable root stages (Function.update hasClaimed leaf true)

def markAll (stages : List ((U256 × U256) × List Bytes32)) (hasClaimed : Bytes32 → Bool) :
    Bytes32 → Bool :=
  stages.foldl (fun marked stage =>
    Function.update marked ((stageOf sender stage).1.leaf keccak) true) hasClaimed

/-- The stages are marked, and the token has carried out transfers. -/
def Funded.paid (stages : List ((U256 × U256) × List Bytes32)) (amounts : List Nat)
    (token : Erc20 Address 256) (state : Funded) : Funded :=
  { airdrop := { state.airdrop with
      hasClaimed := markAll keccak sender stages state.airdrop.hasClaimed
      transfers := state.airdrop.transfers ++ amounts.map fun amount => (sender, amount) }
    token := token }

end

/-- The drop is open for claims. -/
def State.Claimable (timestamp : U256) (state : State) : Prop :=
  state.paused = false ∧ timestamp ≤ state.limitTimestampToClaim

variable {keccak : Bytes → Bytes32} {verify : List Bytes32 → Bytes32 → Bytes32 → Bool}
  {rules : Erc20.Rules Address} {airdropAddress tokenDistributor sender : Address}
  {timestamp : U256}

@[simp] theorem totalOf_nil : totalOf [] = 0 := rfl

@[simp] theorem totalOf_cons (amount : U256) (amounts : List U256) :
    totalOf (amount :: amounts) = amount.toNat + totalOf amounts := by
  rw [totalOf, List.map_cons, List.sum_cons, ← totalOf]

/-! ## The marks -/

/-- The loop of a batch succeeds for stages that can be marked, unless the total
overflows. -/
theorem claimStages_eq_ok_iff {stages : List ((U256 × U256) × List Bytes32)} {sofar total : Nat}
    {state next : State} (small : sofar < 2 ^ 256) :
    claimStages keccak verify sender timestamp stages sofar state = .ok (next, total) ↔
      Markable keccak verify sender timestamp state.claimMerkleRoot stages state.hasClaimed ∧
        total = sofar + totalOf (stages.map fun stage => stage.1.1) ∧ total < 2 ^ 256 ∧
        next = { state with hasClaimed := markAll keccak sender stages state.hasClaimed } := by
  induction stages generalizing sofar state with
  | nil =>
      rw [claimStages, Except.ok.injEq, Prod.mk.injEq]
      constructor
      · rintro ⟨rfl, rfl⟩
        exact ⟨trivial, rfl, small, rfl⟩
      · rintro ⟨-, rfl, -, rfl⟩
        exact ⟨rfl, rfl⟩
  | cons stage stages ih =>
      obtain ⟨⟨amount, validFrom⟩, merkleProof⟩ := stage
      have marks := fun marked => @verifyAndMark_eq_ok_iff keccak verify state marked timestamp
        ⟨sender, amount, validFrom⟩ merkleProof
      rw [List.map_cons, totalOf_cons]
      dsimp only
      simp only [claimStages, bind_eq_ok, require_eq_ok]
      constructor
      · rintro ⟨middle, marked, -, fits, later⟩
        obtain ⟨verified, rfl⟩ := (marks _).mp marked
        obtain ⟨markable, rfl, bounded, rfl⟩ := (ih fits).mp later
        exact ⟨⟨verified, markable⟩, Nat.add_assoc _ _ _, bounded, rfl⟩
      · rintro ⟨⟨verified, markable⟩, rfl, bounded, rfl⟩
        have fits : sofar + amount.toNat < 2 ^ 256 := by omega
        exact ⟨_, (marks _).mpr ⟨verified, rfl⟩, (), fits,
          (ih fits).mpr ⟨markable, (Nat.add_assoc _ _ _).symm, bounded, rfl⟩⟩

/-! ## Single claims -/

theorem claim_eq_ok_iff {stage : (U256 × U256) × List Bytes32} {state next : Funded} :
    state.claim keccak verify rules airdropAddress tokenDistributor sender timestamp stage.1.1
        stage.1.2 stage.2 = .ok next ↔
      state.airdrop.Claimable timestamp ∧
        (StageVerified keccak verify timestamp state.airdrop.claimMerkleRoot
            (stageOf sender stage) ∧
          state.airdrop.hasClaimed ((stageOf sender stage).1.leaf keccak) = false) ∧
        ∃ token, state.token.transferFrom rules airdropAddress tokenDistributor sender stage.1.1 =
            some token ∧
          next = state.paid keccak sender [stage] [stage.1.1.toNat] token := by
  have marks := fun marked => @verifyAndMark_eq_ok_iff keccak verify state.airdrop marked
    timestamp (stageOf sender stage).1 stage.2
  simp only [Funded.claim, ClaimableAirdrop.claim, safeTransferFrom, bind_eq_ok, require_eq_ok,
    pure, Except.pure, Except.ok.injEq, Bool.not_eq_true]
  constructor
  · rintro ⟨claimed, ⟨-, unpaused, -, inTime, marked, checked, -, succeeds, rfl⟩, rfl⟩
    obtain ⟨verified, rfl⟩ := (marks _).mp checked
    obtain ⟨token, paid⟩ := Option.isSome_iff_exists.mp succeeds
    refine ⟨⟨unpaused, inTime⟩, verified, token, paid, ?_⟩
    rw [paid]
    rfl
  · rintro ⟨⟨unpaused, inTime⟩, verified, token, paid, rfl⟩
    refine ⟨_, ⟨(), unpaused, (), inTime, _, (marks _).mpr ⟨verified, rfl⟩, (), ?_, rfl⟩, ?_⟩
    · rw [paid]
      rfl
    · rw [paid]
      rfl

theorem claims_eq_ok_iff {stages : List ((U256 × U256) × List Bytes32)} {state next : Funded} :
    state.claims keccak verify rules airdropAddress tokenDistributor sender timestamp stages =
        .ok next ↔
      (stages ≠ [] → state.airdrop.Claimable timestamp) ∧
        Markable keccak verify sender timestamp state.airdrop.claimMerkleRoot stages
          state.airdrop.hasClaimed ∧
        ∃ token, state.token.transfersFrom rules airdropAddress tokenDistributor sender
            (stages.map fun stage => stage.1.1) = some token ∧
          next = state.paid keccak sender stages (stages.map fun stage => stage.1.1.toNat)
            token := by
  induction stages generalizing state with
  | nil =>
      rw [Funded.claims, Except.ok.injEq, List.map_nil, List.map_nil, Erc20.transfersFrom]
      have same : state.paid keccak sender [] [] state.token = state := by
        rw [Funded.paid, List.map_nil, List.append_nil]
        rfl
      constructor
      · rintro rfl
        exact ⟨fun some => absurd rfl some, trivial, _, rfl, same.symm⟩
      · rintro ⟨-, -, token, paid, rfl⟩
        cases paid
        exact same.symm
  | cons stage stages ih =>
      obtain ⟨⟨amount, validFrom⟩, merkleProof⟩ := stage
      have first := @claim_eq_ok_iff keccak verify rules airdropAddress tokenDistributor sender
        timestamp ((amount, validFrom), merkleProof) state
      rw [Funded.claims, bind_eq_ok]
      simp only [List.map_cons, Erc20.transfersFrom, Option.bind_eq_some_iff]
      constructor
      · rintro ⟨middle, claimed, later⟩
        obtain ⟨claimable, verified, token, paid, rfl⟩ := first.mp claimed
        obtain ⟨-, markable, final, moved, rfl⟩ := ih.mp later
        refine ⟨fun _ => claimable, ⟨verified, markable⟩, final, ⟨token, paid, moved⟩, ?_⟩
        simp [Funded.paid, markAll]
      · rintro ⟨claimable, ⟨verified, markable⟩, final, ⟨token, paid, moved⟩, rfl⟩
        refine ⟨_, first.mpr ⟨claimable (List.cons_ne_nil _ _), verified, token, paid, rfl⟩, ?_⟩
        refine ih.mpr ⟨fun _ => claimable (List.cons_ne_nil _ _), markable, final, moved, ?_⟩
        simp [Funded.paid, markAll]

/-! ## A batch -/

theorem amounts_of_zip {amounts validFroms : List U256} {merkleProofs : List (List Bytes32)}
    (lengths : amounts.length = validFroms.length ∧ amounts.length = merkleProofs.length) :
    ((amounts.zip validFroms).zip merkleProofs).map (fun stage => stage.1.1) = amounts := by
  have outer : ((amounts.zip validFroms).zip merkleProofs).map Prod.fst =
      amounts.zip validFroms := by
    apply List.map_fst_zip
    rw [List.length_zip]
    omega
  have inner : (amounts.zip validFroms).map Prod.fst = amounts :=
    List.map_fst_zip (Nat.le_of_eq lengths.1)
  calc ((amounts.zip validFroms).zip merkleProofs).map (fun stage => stage.1.1)
      = (((amounts.zip validFroms).zip merkleProofs).map Prod.fst).map Prod.fst := by
        rw [List.map_map]
        rfl
    _ = amounts := by rw [outer, inner]

/-- No leaf occurs twice among stages that can be marked. -/
theorem nodup_of_markable {root : Bytes32} {stages : List ((U256 × U256) × List Bytes32)}
    {hasClaimed : Bytes32 → Bool}
    (markable : Markable keccak verify sender timestamp root stages hasClaimed) :
    (∀ stage ∈ stages, hasClaimed ((stageOf sender stage).1.leaf keccak) = false) ∧
      (stages.map fun stage => (stageOf sender stage).1.leaf keccak).Nodup := by
  induction stages generalizing hasClaimed with
  | nil => exact ⟨fun stage member => absurd member List.not_mem_nil, List.nodup_nil⟩
  | cons stage stages ih =>
      obtain ⟨⟨-, unclaimed⟩, later⟩ := markable
      obtain ⟨others, distinct⟩ := ih later
      have apart : ∀ other ∈ stages, (stageOf sender other).1.leaf keccak ≠
          (stageOf sender stage).1.leaf keccak := by
        intro other member same
        have unmarked := others other member
        rw [same, Function.update_self] at unmarked
        cases unmarked
      constructor
      · intro other member
        rcases List.mem_cons.mp member with rfl | rest
        · exact unclaimed
        · have unmarked := others other rest
          rwa [Function.update_of_ne (apart other rest)] at unmarked
      · rw [List.map_cons, List.nodup_cons]
        refine ⟨?_, distinct⟩
        intro again
        obtain ⟨other, member, same⟩ := List.mem_map.mp again
        exact apart other member same

theorem claimBatch_eq_ok_iff {amounts validFroms : List U256}
    {merkleProofs : List (List Bytes32)} {state next : Funded} :
    state.claimBatch keccak verify rules airdropAddress tokenDistributor sender timestamp amounts
        validFroms merkleProofs = .ok next ↔
      state.airdrop.Claimable timestamp ∧
        (amounts.length = validFroms.length ∧ amounts.length = merkleProofs.length) ∧
        Markable keccak verify sender timestamp state.airdrop.claimMerkleRoot
          ((amounts.zip validFroms).zip merkleProofs) state.airdrop.hasClaimed ∧
        0 < totalOf amounts ∧ totalOf amounts < 2 ^ 256 ∧
        ∃ token, state.token.transferFrom rules airdropAddress tokenDistributor sender
            (BitVec.ofNat 256 (totalOf amounts)) = some token ∧
          next = state.paid keccak sender ((amounts.zip validFroms).zip merkleProofs)
            [totalOf amounts] token := by
  simp only [Funded.claimBatch, ClaimableAirdrop.claimBatch, safeTransferFrom, bind_eq_ok,
    require_eq_ok, pure, Except.pure, Except.ok.injEq, Bool.not_eq_true, Prod.exists]
  have staged := fun marked total => @claimStages_eq_ok_iff keccak verify sender timestamp
    ((amounts.zip validFroms).zip merkleProofs) 0 total state.airdrop marked (Nat.two_pow_pos 256)
  constructor
  · rintro ⟨claimed, ⟨-, unpaused, -, inTime, -, lengths, marked, total, checked, -, positive, -,
      succeeds, rfl⟩, rfl⟩
    obtain ⟨markable, rfl, bounded, rfl⟩ := (staged _ _).mp checked
    rw [Nat.zero_add, amounts_of_zip lengths] at positive bounded ⊢
    obtain ⟨token, paid⟩ := Option.isSome_iff_exists.mp succeeds
    refine ⟨⟨unpaused, inTime⟩, lengths, markable, positive, bounded, token, paid, ?_⟩
    rw [paid]
    rfl
  · rintro ⟨⟨unpaused, inTime⟩, lengths, markable, positive, bounded, token, paid, rfl⟩
    have checked := (staged _ (totalOf amounts)).mpr
      ⟨markable, by rw [Nat.zero_add, amounts_of_zip lengths], bounded, rfl⟩
    refine ⟨_, ⟨(), unpaused, (), inTime, (), lengths, _, _, checked, (), positive, (), ?_, rfl⟩, ?_⟩
    · rw [paid]
      rfl
    · rw [paid]
      rfl

theorem ne_nil_of_total {amounts : List U256} (positive : 0 < totalOf amounts) : amounts ≠ [] := by
  rintro rfl
  exact absurd positive (Nat.lt_irrefl 0)

/-- What a batch does is what the single claims do. -/
theorem claims_of_claimBatch {amounts validFroms : List U256}
    {merkleProofs : List (List Bytes32)} {state next : Funded}
    (succeeded : state.claimBatch keccak verify rules airdropAddress tokenDistributor sender
      timestamp amounts validFroms merkleProofs = .ok next) :
    (∃ final, state.claims keccak verify rules airdropAddress tokenDistributor sender timestamp
        ((amounts.zip validFroms).zip merkleProofs) = .ok final ∧
      next.airdrop.hasClaimed = final.airdrop.hasClaimed ∧ next.token = final.token) ∧
      (sender = tokenDistributor →
        totalOf amounts ≤ (state.token.balances tokenDistributor).toNat) := by
  obtain ⟨claimable, lengths, markable, positive, bounded, token, paid, rfl⟩ :=
    claimBatch_eq_ok_iff.mp succeeded
  obtain ⟨moved, covered⟩ :=
    (Erc20.transferFrom_sum (ne_nil_of_total positive) bounded).mp paid
  refine ⟨⟨_, claims_eq_ok_iff.mpr ⟨fun _ => claimable, markable, token, ?_, rfl⟩, rfl, rfl⟩,
    covered⟩
  rw [amounts_of_zip lengths]
  exact moved

theorem claimBatch_of_claims {amounts validFroms : List U256}
    {merkleProofs : List (List Bytes32)} {state final : Funded}
    (lengths : amounts.length = validFroms.length ∧ amounts.length = merkleProofs.length)
    (positive : 0 < totalOf amounts) (bounded : totalOf amounts < 2 ^ 256)
    (covered : sender = tokenDistributor →
      totalOf amounts ≤ (state.token.balances tokenDistributor).toNat)
    (succeeded : state.claims keccak verify rules airdropAddress tokenDistributor sender timestamp
      ((amounts.zip validFroms).zip merkleProofs) = .ok final) :
    ∃ next, state.claimBatch keccak verify rules airdropAddress tokenDistributor sender timestamp
      amounts validFroms merkleProofs = .ok next := by
  obtain ⟨claimable, markable, token, moved, -⟩ := claims_eq_ok_iff.mp succeeded
  rw [amounts_of_zip lengths] at moved
  have some_stage : (amounts.zip validFroms).zip merkleProofs ≠ [] := by
    intro none
    apply ne_nil_of_total positive
    rw [← amounts_of_zip lengths, none]
    rfl
  have paid := (Erc20.transferFrom_sum (ne_nil_of_total positive) bounded).mpr ⟨moved, covered⟩
  exact ⟨_, claimBatch_eq_ok_iff.mpr
    ⟨claimable some_stage, lengths, markable, positive, bounded, token, paid, rfl⟩⟩

/-- For every state, caller, time and list of claims, a batch succeeds exactly
when its total is non-zero and fits, all single claims succeed, and a
distributor that claims for itself holds the total.  The marks and the token
are then the same, and a batch that reverts changes nothing. -/
theorem claimBatch_refines_claims (keccak : Bytes → Bytes32)
    (verify : List Bytes32 → Bytes32 → Bytes32 → Bool) (rules : Erc20.Rules Address)
    (airdropAddress tokenDistributor sender : Address) (timestamp : U256) (state : Funded)
    (amounts validFroms : List U256) (merkleProofs : List (List Bytes32)) :
    let stages := (amounts.zip validFroms).zip merkleProofs
    let batch := state.claimBatch keccak verify rules airdropAddress tokenDistributor sender
      timestamp amounts validFroms merkleProofs
    let singles := state.claims keccak verify rules airdropAddress tokenDistributor sender
      timestamp stages
    ((∃ next, batch = .ok next) ↔
      (amounts.length = validFroms.length ∧ amounts.length = merkleProofs.length) ∧
        0 < totalOf amounts ∧ totalOf amounts < 2 ^ 256 ∧ (∃ final, singles = .ok final) ∧
        (sender = tokenDistributor →
          totalOf amounts ≤ (state.token.balances tokenDistributor).toNat)) ∧
    (∀ next, batch = .ok next → ∃ final, singles = .ok final ∧
      next.airdrop.hasClaimed = final.airdrop.hasClaimed ∧ next.token = final.token) ∧
    (∀ next, batch = .ok next →
      (stages.map fun stage => (stageOf sender stage).1.leaf keccak).Nodup) ∧
    ∀ reason, batch = .error reason → state.after batch = state := by
  intro stages batch singles
  refine ⟨?_, ?_, ?_, ?_⟩
  · constructor
    · rintro ⟨next, succeeded⟩
      obtain ⟨-, lengths, -, positive, bounded, -⟩ := claimBatch_eq_ok_iff.mp succeeded
      obtain ⟨⟨final, claimed, -⟩, covered⟩ := claims_of_claimBatch succeeded
      exact ⟨lengths, positive, bounded, ⟨final, claimed⟩, covered⟩
    · rintro ⟨lengths, positive, bounded, ⟨final, claimed⟩, covered⟩
      exact claimBatch_of_claims lengths positive bounded covered claimed
  · intro next succeeded
    exact (claims_of_claimBatch succeeded).1
  · intro next succeeded
    obtain ⟨-, -, markable, -⟩ := claimBatch_eq_ok_iff.mp succeeded
    exact (nodup_of_markable markable).2
  · intro reason reverted
    rw [reverted]
    rfl

namespace Sample

/-- An approval of the distributor, which is account 1. -/
def ownStage (validFrom : U256) : Approval :=
  { account := 1, amount := 6, validFrom := validFrom }

def ownLeaf (validFrom : U256) : Bytes32 :=
  (ownStage validFrom).leaf Keccak256.keccak256

/-- The root of two leaves, the smaller one first. -/
def pairRoot (left right : Bytes32) : Bytes32 :=
  Keccak256.keccak256 (if left.toList < right.toList then left.toList ++ right.toList
    else right.toList ++ left.toList)

def verifyPair (merkleProof : List Bytes32) (root leaf : Bytes32) : Bool :=
  match merkleProof with
  | [sibling] => pairRoot leaf sibling = root
  | _ => false

/-- The distributor has ten tokens, of which the airdrop may take all. -/
def funded : Funded :=
  { airdrop :=
      { owner := 9
        limitTimestampToClaim := 50
        claimMerkleRoot := pairRoot (ownLeaf 20) (ownLeaf 30)
        hasClaimed := fun _ => false
        paused := false
        transfers := [] }
    token :=
      { balances := fun account => if account = 1 then 10 else 0
        allowances := fun _ _ => BitVec.allOnes 256 } }

def tokenRules : Erc20.Rules Address :=
  { accepts := fun account => account ≠ 0
    keepsGreatest := true }

end Sample

/-- The distributor claims two stages of six for itself. -/
theorem distributor_batch_reverts :
    let proofs := [[Sample.ownLeaf 30], [Sample.ownLeaf 20]]
    0 < totalOf [6, 6] ∧ totalOf [6, 6] < 2 ^ 256 ∧
      (∃ final, Sample.funded.claims Keccak256.keccak256 Sample.verifyPair Sample.tokenRules 7 1 1 40
        ((List.zip [6, 6] [20, 30]).zip proofs) = .ok final) ∧
      ¬ ∃ next, Sample.funded.claimBatch Keccak256.keccak256 Sample.verifyPair Sample.tokenRules 7 1 1
        40 [6, 6] [20, 30] proofs = .ok next := by
  intro proofs
  have singles : (Sample.funded.claims Keccak256.keccak256 Sample.verifyPair Sample.tokenRules 7 1 1
      40 ((List.zip [6, 6] [20, 30]).zip proofs)).isOk = true := by
    decide +kernel
  have batch : (Sample.funded.claimBatch Keccak256.keccak256 Sample.verifyPair Sample.tokenRules 7 1
      1 40 [6, 6] [20, 30] proofs).isOk = false := by
    decide +kernel
  refine ⟨by decide, by decide, ?_, ?_⟩
  · cases claimed : Sample.funded.claims Keccak256.keccak256 Sample.verifyPair Sample.tokenRules 7 1 1
      40 ((List.zip [6, 6] [20, 30]).zip proofs) with
    | ok final => exact ⟨final, rfl⟩
    | error reason =>
        rw [claimed] at singles
        cases singles
  · rintro ⟨next, succeeded⟩
    rw [succeeded] at batch
    cases batch

end AlignedLayer.ClaimableAirdrop
