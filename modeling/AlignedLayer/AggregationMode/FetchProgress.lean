import AlignedLayer.AggregationMode.UntrustedBatches

/-!
# Whether the last aggregated block moves on

The stored block is that of the batch that did not fit.  A run that reads it
again starts with the same batches, so that a block with more proofs than the
limit is never left.
-/

namespace AlignedLayer

/-- The logs of a chain up to a block. -/
def chainLogs (chain : Nat → List (Bytes32 × String)) (blockNumber : Nat) : List NewBatchV3 :=
  (List.range (blockNumber + 1)).flatMap fun number => Aggregation.logs number (chain number)

/-- The aggregator when the chain has reached a block. -/
def onChain (chain : Nat → List (Bytes32 × String)) (blockNumber lastAggregatedBlock : Nat) :
    Aggregation :=
  { blockNumber := blockNumber
    history := chainLogs chain blockNumber
    lastAggregatedBlock := lastAggregatedBlock
    returned := [] }

section

variable (clients : ProverClients) (engine : ZKVMEngine)
  (contents : NewBatchV3 → List VerificationData) (chain : Nat → List (Bytes32 × String))

/-- What a run can take from the batch.  No run that takes a batch with an
entry that cannot be converted succeeds. -/
def batchProofs (log : NewBatchV3) : Nat :=
  if ∀ entry ∈ contents log, Convertible clients engine entry then
    (validProofs clients engine (contents log)).length
  else
    0

def blockProofs (blockNumber : Nat) : Nat :=
  ((Aggregation.logs blockNumber (chain blockNumber)).map
    (batchProofs clients engine contents)).sum

/-- Successful runs without end, each with the block stored before it, while
the chain grows. -/
structure SuccessfulRuns (limit start : Nat) (runs : Nat → AggregatorRun) (last : Nat → Nat) :
    Prop where
  first : last 0 = start
  limited : ∀ time, (runs time).limit = limit
  succeeds : ∀ time, ∃ currentBlock proofs, (runs time).currentBlock = some currentBlock ∧
    (onChain chain currentBlock (last time)).fetch clients engine contents (runs time) =
        .ok (proofs, last (time + 1)) ∧
      (proofs = [] ∨ (runs time).submitted = true)
  grows : ∀ block, ∃ since, ∀ time ≥ since, ∃ currentBlock ∈ (runs time).currentBlock,
    block ≤ currentBlock

/-- Every block with compatible proofs is passed at some time. -/
def PassesEveryBlock (last : Nat → Nat) : Prop :=
  ∀ block, (∃ log ∈ Aggregation.logs block (chain block),
    validProofs clients engine (contents log) ≠ []) → ∃ time, block < last time

/-- A run that downloads every batch it can convert.  The chain has one block
more at every run. -/
def convertingRun (limit start time : Nat) : AggregatorRun :=
  { limit := limit
    currentBlock := some (start + time)
    logsAnswered := true
    downloaded := fun log => decide (∀ entry ∈ contents log, Convertible clients engine entry)
    submitted := true }

def convertingBlock (limit start : Nat) : Nat → Nat
  | 0 => start
  | time + 1 =>
      match (onChain chain (start + time) (convertingBlock limit start time)).fetch clients engine
          contents (convertingRun clients engine contents limit start time) with
      | .ok (_, stop) => stop
      | .error _ => convertingBlock limit start time

end

variable {clients : ProverClients} {engine : ZKVMEngine}
  {contents : NewBatchV3 → List VerificationData} {chain : Nat → List (Bytes32 × String)}
  {run : AggregatorRun}

/-! ## The logs of a chain -/

theorem chainLogs_succ (blockNumber : Nat) :
    chainLogs chain (blockNumber + 1) =
      chainLogs chain blockNumber ++ Aggregation.logs (blockNumber + 1) (chain (blockNumber + 1)) := by
  rw [chainLogs, List.range_succ, List.flatMap_append, List.flatMap_singleton, ← chainLogs]

theorem le_of_mem_chainLogs {blockNumber : Nat} {log : NewBatchV3}
    (member : log ∈ chainLogs chain blockNumber) : log.blockNumber ≤ blockNumber := by
  obtain ⟨number, inRange, member⟩ := List.mem_flatMap.mp member
  rw [blockNumber_of_mem_logs member]
  exact Nat.le_of_lt_succ (List.mem_range.mp inRange)

theorem sorted_chainLogs (blockNumber : Nat) :
    SortedBy NewBatchV3.blockNumber (chainLogs chain blockNumber) := by
  induction blockNumber with
  | zero =>
      rw [chainLogs, Nat.zero_add, List.range_one, List.flatMap_singleton]
      exact sorted_logs 0 _
  | succ blockNumber ih =>
      rw [chainLogs_succ]
      refine List.pairwise_append.mpr ⟨ih, sorted_logs _ _, ?_⟩
      intro earlier old later new
      rw [blockNumber_of_mem_logs new]
      exact Nat.le_succ_of_le (le_of_mem_chainLogs old)

theorem filter_logs_other {number block : Nat} (other : number ≠ block) :
    (Aggregation.logs number (chain number)).filter (fun log => log.blockNumber = block) = [] := by
  apply List.filter_eq_nil_iff.mpr
  intro log member
  rw [blockNumber_of_mem_logs member]
  simpa using other

/-- The logs of one block among those a run asks for. -/
theorem filter_chainLogs {block blockNumber : Nat} (reached : block ≤ blockNumber) :
    (chainLogs chain blockNumber).filter (fun log => log.blockNumber = block) =
      Aggregation.logs block (chain block) := by
  have own : ∀ number, (Aggregation.logs number (chain number)).filter
      (fun log => log.blockNumber = number) = Aggregation.logs number (chain number) := by
    intro number
    apply List.filter_eq_self.mpr
    intro log member
    exact decide_eq_true (blockNumber_of_mem_logs member)
  have before : ∀ number < block, (chainLogs chain number).filter
      (fun log => log.blockNumber = block) = [] := by
    intro number below
    apply List.filter_eq_nil_iff.mpr
    intro log member
    have bound := le_of_mem_chainLogs member
    rw [decide_eq_true_eq]
    omega
  induction blockNumber with
  | zero =>
      obtain rfl := Nat.le_zero.mp reached
      rw [chainLogs, Nat.zero_add, List.range_one, List.flatMap_singleton]
      exact own 0
  | succ blockNumber ih =>
      rw [chainLogs_succ, List.filter_append]
      rcases Nat.lt_or_eq_of_le reached with below | rfl
      · rw [ih (Nat.le_of_lt_succ below), filter_logs_other (by omega), List.append_nil]
      · rw [before blockNumber (Nat.lt_succ_self _), own, List.nil_append]

theorem filter_logsOf {block fromBlock toBlock : Nat} (first : fromBlock ≤ block)
    (reached : block ≤ toBlock) :
    (ProofsFetcher.logsOf fromBlock toBlock (chainLogs chain toBlock)).filter
        (fun log => log.blockNumber = block) = Aggregation.logs block (chain block) := by
  rw [← filter_chainLogs reached, ProofsFetcher.logsOf, List.filter_filter]
  apply List.filter_congr
  intro log member
  rw [← Bool.decide_and, decide_eq_decide]
  constructor
  · exact And.left
  · intro same
    exact ⟨same, by omega, by omega⟩

/-! ## One run -/

/-- A batch that a successful run reads counts with what the run can take. -/
theorem proofsOf_le_batchProofs {state : Aggregation}
    {result : List (NewBatchV3 × AlignedProof) × Nat} {currentBlock : Nat} {log : NewBatchV3}
    (fetched : state.fetch clients engine contents run = .ok result)
    (told : run.currentBlock = some currentBlock)
    (later : state.lastAggregatedBlock ≤ currentBlock)
    (read : log ∈ run.reads clients engine contents run.limit
      (ProofsFetcher.logsOf state.lastAggregatedBlock currentBlock state.history)) :
    (run.proofsOf clients engine contents log).length ≤
      batchProofs clients engine contents log := by
  rw [AggregatorRun.proofsOf]
  split
  · rename_i downloaded
    have answered : run.logsAnswered = true := by
      by_contra silent
      unfold Aggregation.fetch ProofsFetcher.fetch at fetched
      rw [told] at fetched
      dsimp only at fetched
      rw [if_neg (Nat.not_lt.mpr later), if_neg silent] at fetched
      cases fetched
    have convertible : ∀ entry ∈ contents log, Convertible clients engine entry := by
      by_contra refused
      rw [not_forall] at refused
      obtain ⟨entry, refused⟩ := refused
      rw [Classical.not_imp] at refused
      have panicked := fetch_eq_panic_iff.mpr
        ⟨currentBlock, told, later, answered, log, read, downloaded, entry, refused⟩
      rw [panicked] at fetched
      cases fetched
    rw [batchProofs, if_pos convertible]
  · exact Nat.zero_le _

theorem passed_fst (currentBlock budget : Nat) (logs : List NewBatchV3) :
    (run.passed clients engine contents currentBlock budget logs).1 =
      (affordable (fun log => (run.proofsOf clients engine contents log).length) budget logs).1 := by
  rw [AggregatorRun.passed]
  split
  · rename_i split
    rw [split]
  · rename_i split
    rw [split]

/-- The batch a run stops at does not fit, and it is the first that does not. -/
theorem full_of_stop {currentBlock budget : Nat} {logs : List NewBatchV3}
    (stops : (run.passed clients engine contents currentBlock budget logs).2 ≠ currentBlock) :
    ∃ passed log rest, logs = passed ++ log :: rest ∧
      (run.passed clients engine contents currentBlock budget logs).2 = log.blockNumber ∧
      run.reads clients engine contents budget logs = passed ++ [log] ∧
      budget < ((passed ++ [log]).map fun log =>
        (run.proofsOf clients engine contents log).length).sum := by
  have parts := affordable_append
    (fun log => (run.proofsOf clients engine contents log).length) budget logs
  rw [AggregatorRun.passed] at stops ⊢
  rw [AggregatorRun.reads]
  cases behind : (affordable (fun log => (run.proofsOf clients engine contents log).length)
      budget logs).2 with
  | nil =>
      generalize affordable _ _ _ = split at behind stops
      obtain ⟨passed, rest⟩ := split
      subst behind
      exact absurd rfl stops
  | cons log rest =>
      have full := lt_sum_of_affordable behind
      generalize affordable _ _ _ = split at behind parts full stops ⊢
      obtain ⟨passed, others⟩ := split
      subst behind
      refine ⟨passed, log, rest, parts.symm, rfl, rfl, ?_⟩
      rw [List.map_append, List.sum_append, List.map_singleton, List.sum_singleton]
      exact full

/-- A run does not go back, and it leaves a block that fits the limit. -/
theorem stop_of_fetch {currentBlock last stop : Nat}
    {proofs : List (NewBatchV3 × AlignedProof)}
    (fetched : (onChain chain currentBlock last).fetch clients engine contents run =
      .ok (proofs, stop)) (told : run.currentBlock = some currentBlock) :
    last ≤ stop ∧
      (last < currentBlock → blockProofs clients engine contents chain last ≤ run.limit →
        last < stop) := by
  obtain ⟨asked, toldAsked, later, same⟩ := fetch_eq fetched
  rw [told, Option.some.injEq] at toldAsked
  subst toldAsked
  have read := fun log => @proofsOf_le_batchProofs clients engine contents run _ _ _ log fetched
    told later
  change (proofs, stop) = (_, (run.passed clients engine contents currentBlock run.limit
    (ProofsFetcher.logsOf last currentBlock (chainLogs chain currentBlock))).2) at same
  change ∀ log, log ∈ run.reads clients engine contents run.limit
    (ProofsFetcher.logsOf last currentBlock (chainLogs chain currentBlock)) → _ at read
  change last ≤ currentBlock at later
  have isStop := congrArg Prod.snd same
  dsimp only at isStop
  have sorted : SortedBy NewBatchV3.blockNumber
      (ProofsFetcher.logsOf last currentBlock (chainLogs chain currentBlock)) :=
    (sorted_chainLogs currentBlock).filter _
  have first : ∀ log ∈ ProofsFetcher.logsOf last currentBlock (chainLogs chain currentBlock),
      last ≤ log.blockNumber := by
    intro log member
    rw [ProofsFetcher.logsOf, List.mem_filter, decide_eq_true_eq] at member
    exact member.2.1
  have own := fun reached => @filter_logsOf chain last last currentBlock (Nat.le_refl _) reached
  generalize ProofsFetcher.logsOf last currentBlock (chainLogs chain currentBlock) = logs
    at isStop sorted first own read
  by_cases ended : (run.passed clients engine contents currentBlock run.limit logs).2 = currentBlock
  · rw [isStop, ended]
    exact ⟨later, fun below _ => below⟩
  · obtain ⟨passed, log, rest, rfl, stops, reads, full⟩ := full_of_stop ended
    rw [isStop, stops]
    have above : last ≤ log.blockNumber := first log (by simp)
    refine ⟨above, ?_⟩
    intro below fits
    by_contra stays
    -- Every batch up to the one that does not fit is of the block the run started at.
    have inBlock : ∀ other ∈ passed ++ [log], other.blockNumber = last := by
      intro other member
      have lower : last ≤ other.blockNumber := by
        apply first other
        rw [List.append_cons]
        exact List.mem_append_left rest member
      have upper : other.blockNumber ≤ log.blockNumber := by
        rcases List.mem_append.mp member with before | itself
        · exact (List.pairwise_append.mp sorted).2.2 other before log List.mem_cons_self
        · rw [List.mem_singleton.mp itself]
      omega
    have kept : (passed ++ [log]).Sublist (Aggregation.logs last (chain last)) := by
      have split : passed ++ log :: rest = (passed ++ [log]) ++ rest := List.append_cons _ _ _
      rw [← own later, split, List.filter_append,
        List.filter_eq_self.mpr fun other member => decide_eq_true (inBlock other member)]
      exact List.sublist_append_left _ _
    have taken : ((passed ++ [log]).map fun log =>
        (run.proofsOf clients engine contents log).length).sum ≤
          ((passed ++ [log]).map (batchProofs clients engine contents)).sum := by
      apply List.sum_le_sum
      intro other member
      exact read other (reads ▸ member)
    have bounded : ((passed ++ [log]).map (batchProofs clients engine contents)).sum ≤
        blockProofs clients engine contents chain last :=
      (kept.map _).sum_le_sum fun _ _ => Nat.zero_le _
    omega

/-- A run that takes all it can does not leave a block over the limit. -/
theorem stop_le_of_full {currentBlock last stop block : Nat}
    {proofs : List (NewBatchV3 × AlignedProof)}
    (fetched : (onChain chain currentBlock last).fetch clients engine contents run =
      .ok (proofs, stop)) (told : run.currentBlock = some currentBlock) (before : last ≤ block)
    (takesAll : ∀ log ∈ Aggregation.logs block (chain block),
      batchProofs clients engine contents log ≤
        (run.proofsOf clients engine contents log).length)
    (full : run.limit < blockProofs clients engine contents chain block) : stop ≤ block := by
  obtain ⟨asked, toldAsked, -, same⟩ := fetch_eq fetched
  rw [told, Option.some.injEq] at toldAsked
  subst toldAsked
  have isStop := congrArg Prod.snd same
  change stop = (run.passed clients engine contents currentBlock run.limit
    (ProofsFetcher.logsOf last currentBlock (chainLogs chain currentBlock))).2 at isStop
  have own := fun reached => @filter_logsOf chain block last currentBlock before reached
  have sorted : SortedBy NewBatchV3.blockNumber
      (ProofsFetcher.logsOf last currentBlock (chainLogs chain currentBlock)) :=
    (sorted_chainLogs currentBlock).filter _
  have known : ∀ log ∈ ProofsFetcher.logsOf last currentBlock (chainLogs chain currentBlock),
      log.blockNumber ≤ currentBlock := by
    intro log member
    rw [ProofsFetcher.logsOf, List.mem_filter, decide_eq_true_eq] at member
    exact member.2.2
  generalize ProofsFetcher.logsOf last currentBlock (chainLogs chain currentBlock) = logs
    at isStop own sorted known
  obtain ⟨reached, -, rest, parts, above⟩ := @passed_spec clients engine contents run
    currentBlock run.limit logs sorted known
  rw [← isStop] at reached above
  by_contra past
  have none : rest.filter (fun log => log.blockNumber = block) = [] := by
    apply List.filter_eq_nil_iff.mpr
    intro log member
    have bound := above log member
    rw [decide_eq_true_eq]
    omega
  have inside : Aggregation.logs block (chain block) =
      (run.passed clients engine contents currentBlock run.limit logs).1.filter
        fun log => log.blockNumber = block := by
    rw [← own (by omega)]
    nth_rewrite 1 [← parts]
    rw [List.filter_append, none, List.append_nil]
  have count : blockProofs clients engine contents chain block ≤
      ((Aggregation.logs block (chain block)).map fun log =>
        (run.proofsOf clients engine contents log).length).sum :=
    List.sum_le_sum takesAll
  have bounded := sum_affordable_le
    (fun log => (run.proofsOf clients engine contents log).length) run.limit logs
  rw [← passed_fst currentBlock] at bounded
  have fewer : ((Aggregation.logs block (chain block)).map fun log =>
      (run.proofsOf clients engine contents log).length).sum ≤
        ((run.passed clients engine contents currentBlock run.limit logs).1.map fun log =>
          (run.proofsOf clients engine contents log).length).sum := by
    rw [inside]
    exact (List.filter_sublist.map _).sum_le_sum fun _ _ => Nat.zero_le _
  omega

/-! ## Runs without end -/

theorem last_mono {limit start : Nat} {runs : Nat → AggregatorRun} {last : Nat → Nat}
    (successful : SuccessfulRuns clients engine contents chain limit start runs last)
    {earlier later : Nat} (order : earlier ≤ later) : last earlier ≤ last later := by
  induction order with
  | refl => exact Nat.le_refl _
  | step order ih =>
      obtain ⟨currentBlock, proofs, told, fetched, -⟩ := successful.succeeds _
      exact Nat.le_trans ih (stop_of_fetch fetched told).1

/-- While no block is over the limit, some later run moves on. -/
theorem moves_of_fits {limit start : Nat} {runs : Nat → AggregatorRun} {last : Nat → Nat}
    (fits : ∀ block, start ≤ block →
      blockProofs clients engine contents chain block ≤ limit)
    (successful : SuccessfulRuns clients engine contents chain limit start runs last)
    (time : Nat) : ∃ later, last time < last later := by
  obtain ⟨since, grown⟩ := successful.grows (last time + 1)
  let now := max since time
  obtain ⟨currentBlock, proofs, told, fetched, -⟩ := successful.succeeds now
  obtain ⟨asked, answered, reached⟩ := grown now (Nat.le_max_left _ _)
  rw [Option.mem_def, told, Option.some.injEq] at answered
  subst answered
  have before : last time ≤ last now := last_mono successful (Nat.le_max_right _ _)
  by_cases moved : last time < last now
  · exact ⟨now, moved⟩
  · have same : last now = last time := by omega
    refine ⟨now + 1, ?_⟩
    rw [← same]
    apply (stop_of_fetch fetched told).2
    · omega
    · rw [successful.limited]
      apply fits
      rw [← successful.first]
      exact last_mono successful (Nat.zero_le _)

theorem converting_survives {limit start time : Nat} {state : Aggregation} :
    state.fetch clients engine contents (convertingRun clients engine contents limit start time) ≠
      .error .panic := by
  intro panicked
  obtain ⟨currentBlock, -, -, -, log, -, downloaded, entry, member, refused⟩ :=
    fetch_eq_panic_iff.mp panicked
  exact refused (of_decide_eq_true downloaded entry member)

theorem converting_fetch {limit start time : Nat}
    (later : convertingBlock clients engine contents chain limit start time ≤ start + time) :
    ∃ proofs,
      (onChain chain (start + time)
        (convertingBlock clients engine contents chain limit start time)).fetch clients engine
          contents (convertingRun clients engine contents limit start time) =
      .ok (proofs, convertingBlock clients engine contents chain limit start (time + 1)) := by
  obtain ⟨⟨proofs, stop⟩, fetched⟩ := @exists_fetch clients engine contents
    (convertingRun clients engine contents limit start time)
    (onChain chain (start + time)
      (convertingBlock clients engine contents chain limit start time))
    (start + time) rfl later rfl converting_survives
  refine ⟨proofs, ?_⟩
  rw [convertingBlock, fetched]

theorem converting_le (limit start time : Nat) :
    convertingBlock clients engine contents chain limit start time ≤ start + time := by
  induction time with
  | zero => exact Nat.le_refl _
  | succ time ih =>
      obtain ⟨proofs, fetched⟩ := converting_fetch ih
      obtain ⟨currentBlock, told, -, same⟩ := fetch_eq fetched
      obtain rfl := Option.some.inj told
      have isStop := congrArg Prod.snd same
      dsimp only at isStop
      have bound : convertingBlock clients engine contents chain limit start (time + 1) ≤
          start + time := by
        rw [isStop]
        apply passed_stop_le
        intro log member
        rw [ProofsFetcher.logsOf, List.mem_filter, decide_eq_true_eq] at member
        exact member.2.2
      omega

theorem converting_successful (limit start : Nat) :
    SuccessfulRuns clients engine contents chain limit start
      (convertingRun clients engine contents limit start)
      (convertingBlock clients engine contents chain limit start) := by
  constructor
  · rfl
  · intro time
    rfl
  · intro time
    obtain ⟨proofs, fetched⟩ := converting_fetch (converting_le limit start time)
    exact ⟨start + time, proofs, rfl, fetched, .inr rfl⟩
  · intro block
    refine ⟨block, ?_⟩
    intro time late
    exact ⟨start + time, rfl, by omega⟩

theorem converting_stays {limit start block : Nat} (first : start ≤ block)
    (full : limit < blockProofs clients engine contents chain block) (time : Nat) :
    convertingBlock clients engine contents chain limit start time ≤ block := by
  induction time with
  | zero => exact first
  | succ time ih =>
      obtain ⟨proofs, fetched⟩ := converting_fetch (converting_le limit start time)
      refine stop_le_of_full fetched rfl ih ?_ full
      intro log member
      rw [batchProofs, AggregatorRun.proofsOf, convertingRun]
      by_cases convertible : ∀ entry ∈ contents log, Convertible clients engine entry
      · rw [if_pos convertible, if_pos (decide_eq_true convertible)]
      · rw [if_neg convertible]
        exact Nat.zero_le _

/-- For every chain, data service and limit, all successful runs pass every
block with compatible proofs exactly when no block from the start on has more
than the limit. -/
theorem fetch_progress_iff (clients : ProverClients) (engine : ZKVMEngine)
    (contents : NewBatchV3 → List VerificationData) (chain : Nat → List (Bytes32 × String))
    (limit start : Nat) :
    (∀ runs last, SuccessfulRuns clients engine contents chain limit start runs last →
        PassesEveryBlock clients engine contents chain last) ↔
      ∀ block, start ≤ block → blockProofs clients engine contents chain block ≤ limit := by
  constructor
  · intro passes block first
    by_contra exceeds
    have full : limit < blockProofs clients engine contents chain block := by omega
    have compatible : ∃ log ∈ Aggregation.logs block (chain block),
        validProofs clients engine (contents log) ≠ [] := by
      by_contra none
      have empty : blockProofs clients engine contents chain block = 0 := by
        rw [blockProofs, List.sum_eq_zero_iff]
        intro count member
        obtain ⟨log, inBlock, rfl⟩ := List.mem_map.mp member
        rw [batchProofs]
        split
        · by_contra some
          apply none
          exact ⟨log, inBlock, fun nothing => some (congrArg List.length nothing)⟩
        · rfl
      omega
    obtain ⟨time, passed⟩ := passes _ _ (converting_successful limit start) block compatible
    have stays := converting_stays first full time
    omega
  · intro fits runs last successful block _
    exact exists_lt_of_moves (moves_of_fits fits successful) block

namespace Sample

/-- Two batches in block 1 and none in the others. -/
def twoInFirstBlock : Nat → List (Bytes32 × String)
  | 1 => [(Bytes32.zero, ""), (Bytes32.zero, "")]
  | _ => []

end Sample

/-- With a limit of one the two proofs of block 1 are never passed. -/
theorem two_batches_never_passed :
    ¬ ∀ runs last,
      SuccessfulRuns Sample.proverClients .sp1 Sample.batchContents Sample.twoInFirstBlock 1 1
          runs last →
        PassesEveryBlock Sample.proverClients .sp1 Sample.batchContents Sample.twoInFirstBlock
          last := by
  intro passes
  obtain ⟨time, passed⟩ := passes _ _ (converting_successful 1 1) 1 (by decide +kernel)
  have stays := @converting_stays Sample.proverClients .sp1 Sample.batchContents
    Sample.twoInFirstBlock 1 1 1 (Nat.le_refl 1) (by decide +kernel) time
  omega

end AlignedLayer
