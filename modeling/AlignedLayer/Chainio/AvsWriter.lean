import AlignedLayer.Library.Machine
import AlignedLayer.Sdk.VerificationData
import Mathlib.Algebra.Order.Ring.Nat

/-!
# Sending the aggregated response

The retry loop of `SendAggregatedResponse` bids for one nonce with rising gas
prices.  Before a further bid it looks for a receipt of the earlier ones: the
receipt that the main client has only keeps it from asking the fallback client.
-/

namespace AlignedLayer.AvsWriter

structure SentTx where
  hash : Bytes32
  nonce : Int
  gasPrice : Int
  deriving DecidableEq

/-- `int64` of a `uint`. -/
def int64 (value : UInt64) : Int :=
  value.toBitVec.toInt

def calculateGasPriceBumpBasedOnRetry (currentGasPrice : Int)
    (baseBumpPercentage retryAttemptPercentage bumpPercentageLimit : UInt64) (retryCount : Nat) :
    Int :=
  let incrementalRetryPercentage := int64 retryAttemptPercentage * retryCount
  let totalBumpPercentage := int64 baseBumpPercentage + incrementalRetryPercentage
  let bumpPercentageLimitAsBigInt := int64 bumpPercentageLimit
  let totalBumpPercentage :=
    if totalBumpPercentage > bumpPercentageLimitAsBigInt then bumpPercentageLimitAsBigInt
    else totalBumpPercentage
  let bumpAmount := currentGasPrice * totalBumpPercentage / 100
  currentGasPrice + bumpAmount

structure GasBump where
  gasBumpPercentage : UInt64
  gasBumpIncrementalPercentage : UInt64
  gasBumpPercentageLimit : UInt64

inductive Result (Receipt : Type) where
  | returned (receipt : Option Receipt)
  /-- The balances do not cover the cost. -/
  | permanentError
  deriving DecidableEq

/-- The variables of `SendAggregatedResponse`, and what it returned. -/
structure Response (Receipt : Type) where
  txNonce : Int
  simTxGas : Nat
  gasPrice : Option Int
  i : Nat
  sentTxs : List SentTx
  result : Option (Result Receipt)

/-- What one iteration learns; `none` is an error or an absence. -/
structure Answers (Receipt : Type) where
  gasPrice : Option Nat
  client : Bytes32 → Option Receipt
  clientFallback : Bytes32 → Option Receipt
  /-- Not so if the state of the batch cannot be read. -/
  responded : Bool
  respondToTaskFeeLimit : Option Nat
  aggregatorBalance : Option Nat
  batcherBalance : Option Nat
  /-- The hash of the transaction that was sent. -/
  realTx : Option Bytes32
  /-- The receipt that comes before the gas price is bumped. -/
  awaited : Option Receipt

variable {Receipt : Type}

/-- After the simulated transaction. -/
def Response.start (simTxNonce : UInt64) (simTxGas : Nat) : Response Receipt where
  txNonce := int64 simTxNonce
  simTxGas := simTxGas
  gasPrice := none
  i := 0
  sentTxs := []
  result := none

/-- The gas price of an iteration, from that of the node and the last one. -/
def bumpedGasPrice (bump : GasBump) (i : Nat) (gasPrice : Nat) (txOptsGasPrice : Option Int) : Int :=
  let previousTxGasPrice := txOptsGasPrice.getD gasPrice
  let minimumGasPriceBump :=
    calculateGasPriceBumpBasedOnRetry previousTxGasPrice 10 0 bump.gasBumpPercentageLimit 0
  let suggestedBumpedGasPrice :=
    calculateGasPriceBumpBasedOnRetry gasPrice bump.gasBumpPercentage
      bump.gasBumpIncrementalPercentage bump.gasBumpPercentageLimit i
  if suggestedBumpedGasPrice > minimumGasPriceBump then suggestedBumpedGasPrice
  else minimumGasPriceBump

/-- The search for receipts of the sent transactions. -/
def findReceipt (client clientFallback : Bytes32 → Option Receipt) :
    List SentTx → Option Receipt
  | [] => none
  | tx :: sentTxs =>
      match client tx.hash with
      | some _ => findReceipt client clientFallback sentTxs
      | none =>
          match clientFallback tx.hash with
          | some receipt => some receipt
          | none => findReceipt client clientFallback sentTxs

/-- `checkAggAndBatcherHaveEnoughBalance`: a balance that cannot be read is
enough. -/
def haveEnoughBalance (answers : Answers Receipt) (txCost : Int) : Bool :=
  let amount : Int := (answers.respondToTaskFeeLimit.map Int.ofNat).getD txCost
  (answers.aggregatorBalance.all fun balance => amount ≤ balance) &&
    answers.batcherBalance.all fun balance => amount ≤ balance

/-- The transaction is sent with the price and waited for. -/
def sendTx (answers : Answers Receipt) (gasPrice : Int) (response : Response Receipt) :
    Response Receipt :=
  match answers.realTx with
  | none => response
  | some hash =>
      let sentTxs := response.sentTxs ++ [⟨hash, response.txNonce, gasPrice⟩]
      match answers.awaited with
      | some receipt =>
          { response with sentTxs := sentTxs, result := some (.returned (some receipt)) }
      | none => { response with sentTxs := sentTxs, i := response.i + 1 }

/-- `respondToTaskV2Func`.  Without a result it is called again. -/
def respondToTaskV2Func (bump : GasBump) (answers : Answers Receipt)
    (response : Response Receipt) : Response Receipt :=
  match answers.gasPrice with
  | none => response
  | some nodeGasPrice =>
      let gasPrice := bumpedGasPrice bump response.i nodeGasPrice response.gasPrice
      let response := { response with gasPrice := some gasPrice }
      match (if response.i > 0 then
          findReceipt answers.client answers.clientFallback response.sentTxs else none) with
      | some receipt => { response with result := some (.returned (some receipt)) }
      | none =>
          if response.i > 0 ∧ answers.responded then
            { response with result := some (.returned none) }
          else if haveEnoughBalance answers (response.simTxGas * gasPrice) then
            sendTx answers gasPrice response
          else
            { response with result := some .permanentError }

/-- `SendAggregatedResponse` retries without end until there is a result. -/
def sendAggregatedResponse (bump : GasBump) : Machine (Response Receipt) (Answers Receipt) where
  step response answers :=
    if response.result.isSome then none
    else some (respondToTaskV2Func bump answers response)

/-! ## Included transactions -/

/-- A sent transaction has a receipt on one of the clients. -/
def Answers.Included (answers : Answers Receipt) (sentTxs : List SentTx) : Prop :=
  ∃ tx ∈ sentTxs, (answers.client tx.hash).isSome ∨ (answers.clientFallback tx.hash).isSome

/-- An included transaction ends the loop with its receipt; otherwise at most
one transaction is sent, with the nonce of the earlier ones and at least their
prices. -/
structure StopsOnceIncluded (answers : Answers Receipt) (response next : Response Receipt) :
    Prop where
  included : answers.Included response.sentTxs → next.sentTxs = response.sentTxs ∧
    ∃ tx ∈ response.sentTxs, ∃ receipt,
      (answers.client tx.hash = some receipt ∨ answers.clientFallback tx.hash = some receipt) ∧
        next.result = some (.returned (some receipt))
  further : next.sentTxs = response.sentTxs ∨
    ∃ tx, next.sentTxs = response.sentTxs ++ [tx] ∧
      ∀ earlier ∈ response.sentTxs, tx.nonce = earlier.nonce ∧ earlier.gasPrice ≤ tx.gasPrice

/-- The condition on an iteration: if a transaction is included, the gas price
is known and the fallback client alone has the receipt of one. -/
def OnlyOnFallback (response : Response Receipt) (answers : Answers Receipt) : Prop :=
  answers.Included response.sentTxs → answers.gasPrice.isSome ∧
    ∃ tx ∈ response.sentTxs, answers.client tx.hash = none ∧
      (answers.clientFallback tx.hash).isSome

/-- The loop counts its transactions, and the last price is the highest. -/
structure Bids (response : Response Receipt) : Prop where
  counted : response.result = none → response.sentTxs.length = response.i
  earlier : ∀ tx ∈ response.sentTxs, tx.nonce = response.txNonce ∧
    ∃ gasPrice ∈ response.gasPrice, tx.gasPrice ≤ gasPrice
  nonnegative : ∀ gasPrice ∈ response.gasPrice, 0 ≤ gasPrice

variable {bump : GasBump} {answers : Answers Receipt} {response next : Response Receipt}

/-! ## The search -/

theorem findReceipt_eq_some {client clientFallback : Bytes32 → Option Receipt}
    {sentTxs : List SentTx} {receipt : Receipt}
    (found : findReceipt client clientFallback sentTxs = some receipt) :
    ∃ tx ∈ sentTxs, client tx.hash = none ∧ clientFallback tx.hash = some receipt := by
  induction sentTxs with
  | nil => cases found
  | cons tx sentTxs ih =>
      rw [findReceipt] at found
      split at found
      · obtain ⟨other, member, onFallback⟩ := ih found
        exact ⟨other, List.mem_cons_of_mem tx member, onFallback⟩
      · rename_i notOnMain
        split at found
        · rename_i onFallback
          cases found
          exact ⟨tx, List.mem_cons_self, notOnMain, onFallback⟩
        · obtain ⟨other, member, onFallback⟩ := ih found
          exact ⟨other, List.mem_cons_of_mem tx member, onFallback⟩

theorem findReceipt_isSome {client clientFallback : Bytes32 → Option Receipt}
    {sentTxs : List SentTx} {tx : SentTx} (member : tx ∈ sentTxs)
    (notOnMain : client tx.hash = none) (onFallback : (clientFallback tx.hash).isSome) :
    (findReceipt client clientFallback sentTxs).isSome := by
  induction sentTxs with
  | nil => cases member
  | cons first sentTxs ih =>
      rw [findReceipt]
      rcases List.mem_cons.mp member with rfl | later
      · rw [notOnMain]
        obtain ⟨receipt, found⟩ := Option.isSome_iff_exists.mp onFallback
        rw [found]
        rfl
      · split
        · exact ih later
        · split
          · rfl
          · exact ih later

/-! ## The price -/

theorem int64_nonneg {value : UInt64} (small : value.toNat < 2 ^ 63) : 0 ≤ int64 value := by
  have half : 2 * value.toBitVec.toNat < 2 ^ 64 := by
    change 2 * value.toNat < 2 ^ 64
    omega
  rw [int64, BitVec.toInt_eq_toNat_of_lt half]
  exact Int.natCast_nonneg _

/-- A bump of at least nothing, up to a limit that is not negative, does not
lower the price. -/
theorem le_calculateGasPriceBump {price : Int} {base limit : UInt64} (nonnegative : 0 ≤ price)
    (baseSmall : base.toNat < 2 ^ 63) (limitSmall : limit.toNat < 2 ^ 63) :
    price ≤ calculateGasPriceBumpBasedOnRetry price base 0 limit 0 := by
  have bumps : ∀ percentage : Int, 0 ≤ percentage → price ≤ price + price * percentage / 100 := by
    intro percentage atLeast
    have amount : 0 ≤ price * percentage / 100 :=
      Int.ediv_nonneg (Int.mul_nonneg nonnegative atLeast) (by decide)
    omega
  rw [calculateGasPriceBumpBasedOnRetry]
  apply bumps
  split
  · exact int64_nonneg limitSmall
  · rw [Int.natCast_zero, Int.mul_zero, Int.add_zero]
    exact int64_nonneg baseSmall

theorem le_bumpedGasPrice (limitSmall : bump.gasBumpPercentageLimit.toNat < 2 ^ 63)
    {i nodeGasPrice : Nat} {last : Option Int} (nonnegative : ∀ price ∈ last, 0 ≤ price) :
    last.getD nodeGasPrice ≤ bumpedGasPrice bump i nodeGasPrice last ∧
      0 ≤ last.getD nodeGasPrice := by
  have atLeast : 0 ≤ last.getD nodeGasPrice := by
    cases last with
    | none => exact Int.natCast_nonneg _
    | some price => exact nonnegative price rfl
  have minimum := le_calculateGasPriceBump atLeast (by decide : (10 : UInt64).toNat < 2 ^ 63)
    limitSmall
  refine ⟨?_, atLeast⟩
  rw [bumpedGasPrice]
  split
  · omega
  · exact minimum

/-! ## What an iteration can do -/

inductive Iterates (bump : GasBump) (answers : Answers Receipt) (response : Response Receipt) :
    Response Receipt → Prop where
  | noGasPrice (unknown : answers.gasPrice = none) : Iterates bump answers response response
  | finds {nodeGasPrice : Nat} {receipt : Receipt}
      (known : answers.gasPrice = some nodeGasPrice)
      (found : findReceipt answers.client answers.clientFallback response.sentTxs =
        some receipt) :
      Iterates bump answers response
        { response with
          gasPrice := some (bumpedGasPrice bump response.i nodeGasPrice response.gasPrice)
          result := some (.returned (some receipt)) }
  | sendsNothing {nodeGasPrice : Nat} {result : Option (Result Receipt)}
      (known : answers.gasPrice = some nodeGasPrice)
      (notFound : response.i > 0 →
        findReceipt answers.client answers.clientFallback response.sentTxs = none)
      (noReceipt : ∀ receipt, result ≠ some (.returned (some receipt))) :
      Iterates bump answers response
        { response with
          gasPrice := some (bumpedGasPrice bump response.i nodeGasPrice response.gasPrice)
          result := result }
  | sends {nodeGasPrice : Nat} {hash : Bytes32} {i : Nat} {result : Option (Result Receipt)}
      (known : answers.gasPrice = some nodeGasPrice)
      (notFound : response.i > 0 →
        findReceipt answers.client answers.clientFallback response.sentTxs = none)
      (counted : result = none → i = response.i + 1) :
      Iterates bump answers response
        { response with
          gasPrice := some (bumpedGasPrice bump response.i nodeGasPrice response.gasPrice)
          i := i
          sentTxs := response.sentTxs ++ [⟨hash, response.txNonce,
            bumpedGasPrice bump response.i nodeGasPrice response.gasPrice⟩]
          result := result }

theorem iterates_of_step
    (stepped : (sendAggregatedResponse bump).step response answers = some next) :
    response.result = none ∧ Iterates bump answers response next := by
  unfold sendAggregatedResponse at stepped
  dsimp only at stepped
  split at stepped
  · cases stepped
  · rename_i unfinished
    rw [Option.not_isSome_iff_eq_none] at unfinished
    refine ⟨unfinished, ?_⟩
    cases stepped
    unfold respondToTaskV2Func
    split
    · rename_i unknown
      exact .noGasPrice unknown
    · rename_i nodeGasPrice known
      dsimp only
      split
      · rename_i receipt found
        split at found
        · exact .finds known found
        · cases found
      · rename_i nothing
        have notFound : response.i > 0 →
            findReceipt answers.client answers.clientFallback response.sentTxs = none := by
          intro later
          rw [if_pos later] at nothing
          exact nothing
        split
        · exact .sendsNothing known notFound (by simp)
        · split
          · rw [sendTx]
            split
            · exact .sendsNothing known notFound (by simp [unfinished])
            · split
              · exact .sends known notFound (by simp)
              · exact .sends known notFound (fun _ => rfl)
          · exact .sendsNothing known notFound (by simp)

/-! ## Whole runs -/

namespace Bids

theorem start (simTxNonce : UInt64) (simTxGas : Nat) :
    Bids (Response.start simTxNonce simTxGas : Response Receipt) where
  counted _ := rfl
  earlier tx member := by cases member
  nonnegative gasPrice isPrice := by cases isPrice

theorem bumped_nonneg (limitSmall : bump.gasBumpPercentageLimit.toNat < 2 ^ 63)
    (bids : Bids response) (nodeGasPrice : Nat) :
    0 ≤ bumpedGasPrice bump response.i nodeGasPrice response.gasPrice := by
  obtain ⟨minimum, atLeast⟩ := @le_bumpedGasPrice bump limitSmall response.i nodeGasPrice
    response.gasPrice bids.nonnegative
  exact Int.le_trans atLeast minimum

/-- The new price is not below that of an earlier transaction. -/
theorem earlier_le (limitSmall : bump.gasBumpPercentageLimit.toNat < 2 ^ 63)
    (bids : Bids response) (nodeGasPrice : Nat) :
    ∀ tx ∈ response.sentTxs, tx.nonce = response.txNonce ∧
      tx.gasPrice ≤ bumpedGasPrice bump response.i nodeGasPrice response.gasPrice := by
  intro tx member
  obtain ⟨sameNonce, last, isLast, bound⟩ := bids.earlier tx member
  obtain ⟨minimum, -⟩ := @le_bumpedGasPrice bump limitSmall response.i nodeGasPrice
    response.gasPrice bids.nonnegative
  refine ⟨sameNonce, Int.le_trans bound ?_⟩
  rw [Option.mem_def.mp isLast, Option.getD_some] at minimum
  rw [Option.mem_def.mp isLast]
  exact minimum

theorem step (limitSmall : bump.gasBumpPercentageLimit.toNat < 2 ^ 63) (bids : Bids response)
    (stepped : (sendAggregatedResponse bump).step response answers = some next) : Bids next := by
  obtain ⟨unfinished, iterates⟩ := iterates_of_step stepped
  have counted := bids.counted unfinished
  cases iterates with
  | noGasPrice => exact bids
  | finds known found =>
      refine ⟨?_, ?_, ?_⟩
      · intro unsettled
        cases unsettled
      · intro tx member
        obtain ⟨sameNonce, bound⟩ := bids.earlier_le limitSmall _ tx member
        exact ⟨sameNonce, _, rfl, bound⟩
      · intro price isPrice
        cases isPrice
        exact bids.bumped_nonneg limitSmall _
  | sendsNothing known =>
      refine ⟨fun _ => counted, ?_, ?_⟩
      · intro tx member
        obtain ⟨sameNonce, bound⟩ := bids.earlier_le limitSmall _ tx member
        exact ⟨sameNonce, _, rfl, bound⟩
      · intro price isPrice
        cases isPrice
        exact bids.bumped_nonneg limitSmall _
  | sends known notFound counts =>
      refine ⟨?_, ?_, ?_⟩
      · intro unsettled
        dsimp only at unsettled ⊢
        rw [List.length_append, counted, counts unsettled, List.length_singleton]
      · intro tx member
        rcases List.mem_append.mp member with old | new
        · obtain ⟨sameNonce, bound⟩ := bids.earlier_le limitSmall _ tx old
          exact ⟨sameNonce, _, rfl, bound⟩
        · rw [List.mem_singleton.mp new]
          exact ⟨rfl, _, rfl, Int.le_refl _⟩
      · intro price isPrice
        cases isPrice
        exact bids.bumped_nonneg limitSmall _

/-- An iteration does what it should exactly under its condition. -/
theorem stopsOnceIncluded_iff (limitSmall : bump.gasBumpPercentageLimit.toNat < 2 ^ 63)
    (bids : Bids response)
    (stepped : (sendAggregatedResponse bump).step response answers = some next) :
    StopsOnceIncluded answers response next ↔ OnlyOnFallback response answers := by
  obtain ⟨unfinished, iterates⟩ := iterates_of_step stepped
  have counted := bids.counted unfinished
  have later : ∀ tx ∈ response.sentTxs, response.i > 0 := by
    intro tx member
    rw [← counted]
    exact List.length_pos_of_mem member
  constructor
  · intro correct included
    obtain ⟨same, tx, member, receipt, -, returned⟩ := correct.included included
    cases iterates with
    | noGasPrice =>
        rw [unfinished] at returned
        cases returned
    | finds known found =>
        obtain ⟨mined, isSent, notOnMain, onFallback⟩ := findReceipt_eq_some found
        refine ⟨?_, mined, isSent, notOnMain, ?_⟩
        · rw [known]
          rfl
        · rw [onFallback]
          rfl
    | sendsNothing known notFound noReceipt => exact absurd returned (noReceipt receipt)
    | sends =>
        have length := congrArg List.length same
        rw [List.length_append, List.length_singleton] at length
        omega
  · intro condition
    cases iterates with
    | noGasPrice unknown =>
        refine ⟨?_, .inl rfl⟩
        intro included
        obtain ⟨known, -⟩ := condition included
        rw [unknown] at known
        cases known
    | finds known found =>
        refine ⟨?_, .inl rfl⟩
        intro _
        obtain ⟨tx, member, -, onFallback⟩ := findReceipt_eq_some found
        exact ⟨rfl, tx, member, _, .inr onFallback, rfl⟩
    | sendsNothing known notFound =>
        refine ⟨?_, .inl rfl⟩
        intro included
        obtain ⟨-, tx, member, notOnMain, onFallback⟩ := condition included
        have found := findReceipt_isSome member notOnMain onFallback
        rw [notFound (later tx member)] at found
        cases found
    | sends known notFound =>
        refine ⟨?_, .inr ⟨_, rfl, ?_⟩⟩
        · intro included
          obtain ⟨-, tx, member, notOnMain, onFallback⟩ := condition included
          have found := findReceipt_isSome member notOnMain onFallback
          rw [notFound (later tx member)] at found
          cases found
        · intro earlier member
          obtain ⟨sameNonce, bound⟩ := bids.earlier_le limitSmall _ earlier member
          exact ⟨sameNonce.symm, bound⟩

end Bids

/-- With a limit that is no negative `int64`, in every run all iterations stop
once a transaction is included and bid no less than before, exactly when each
finds an included transaction on the fallback client alone. -/
theorem stops_once_included_iff (bump : GasBump)
    (limitSmall : bump.gasBumpPercentageLimit.toNat < 2 ^ 63) (simTxNonce : UInt64)
    (simTxGas : Nat) (iterations : List (Answers Receipt)) :
    (sendAggregatedResponse bump).Meets
        (fun response answers => ∀ next,
          (sendAggregatedResponse bump).step response answers = some next →
            StopsOnceIncluded answers response next)
        (Response.start simTxNonce simTxGas) iterations ↔
      (sendAggregatedResponse bump).Meets
        (fun response answers => response.result = none → OnlyOnFallback response answers)
        (Response.start simTxNonce simTxGas) iterations := by
  apply Machine.Meets.congr (Bids.step limitSmall) _ (Bids.start simTxNonce simTxGas)
  intro response answers bids
  constructor
  · intro correct unfinished
    have stepped : (sendAggregatedResponse bump).step response answers =
        some (respondToTaskV2Func bump answers response) := by
      unfold sendAggregatedResponse
      dsimp only
      rw [unfinished]
      rfl
    exact (bids.stopsOnceIncluded_iff limitSmall stepped).mp (correct _ stepped)
  · intro condition next stepped
    obtain ⟨unfinished, -⟩ := iterates_of_step stepped
    exact (bids.stopsOnceIncluded_iff limitSmall stepped).mpr (condition unfinished)

namespace Sample

/-- The percentages of the configuration files. -/
def configured : GasBump :=
  { gasBumpPercentage := 25
    gasBumpIncrementalPercentage := 20
    gasBumpPercentageLimit := 150 }

/-- The gas price is 100, and a transaction is sent without a receipt in time. -/
def noReceipt : Answers String :=
  { gasPrice := some 100
    client := fun _ => none
    clientFallback := fun _ => none
    responded := false
    respondToTaskFeeLimit := some 1000
    aggregatorBalance := some 1000
    batcherBalance := some 1000
    realTx := some Bytes32.zero
    awaited := none }

def onFallback : Answers String :=
  { noReceipt with clientFallback := fun _ => some "included" }

/-- The main client has the receipt, and the state of the batch cannot be read. -/
def onMain : Answers String :=
  { noReceipt with client := fun _ => some "included" }

end Sample

theorem stops_once_included_onFallback :
    (sendAggregatedResponse Sample.configured).Meets
      (fun response answers => ∀ next,
        (sendAggregatedResponse Sample.configured).step response answers = some next →
          StopsOnceIncluded answers response next)
      (Response.start 7 21000) [Sample.noReceipt, Sample.onFallback] := by
  apply (stops_once_included_iff Sample.configured (by decide) 7 21000 _).mpr
  refine ⟨?_, ?_⟩
  · rintro - ⟨tx, member, -⟩
    cases member
  · rintro next stepped
    cases stepped
    refine ⟨?_, fun _ _ => trivial⟩
    rintro - -
    exact ⟨rfl, _, List.mem_cons_self, rfl, rfl⟩

/-- A receipt on the main client does not keep the loop from a second bid. -/
theorem bids_after_receipt :
    ¬ (sendAggregatedResponse Sample.configured).Meets
      (fun response answers => ∀ next,
        (sendAggregatedResponse Sample.configured).step response answers = some next →
          StopsOnceIncluded answers response next)
      (Response.start 7 21000) [Sample.noReceipt, Sample.onMain] := by
  intro correct
  have second := (correct.2 _ rfl).1 _ rfl
  obtain ⟨same, -⟩ := second.included ⟨_, List.mem_cons_self, .inl rfl⟩
  have length := congrArg List.length same
  exact absurd length (by decide)

end AlignedLayer.AvsWriter
