import AlignedLayer.AggregationMode.Fetcher
import AlignedLayer.Library.Machine
import Mathlib.Data.List.Flatten

/-!
# What the aggregation runs return

A run stores the block its fetch stopped at, and the next run reads that block
again.  So a proof of that block must not have been returned, and a batch of
an earlier block must have been downloaded.
-/

namespace AlignedLayer

/-- The chain, and the file with the last aggregated block. -/
structure Aggregation where
  blockNumber : Nat
  history : List NewBatchV3
  lastAggregatedBlock : Nat
  /-- History: the proofs of the successful runs. -/
  returned : List (NewBatchV3 × AlignedProof)

/-- What the environment decides of a run. -/
structure AggregatorRun where
  limit : Nat
  currentBlock : Option Nat
  logsAnswered : Bool
  downloaded : NewBatchV3 → Bool
  /-- The proofs were aggregated and the contract accepted the result. -/
  submitted : Bool

inductive AggregationLabel where
  | block (batches : List (Bytes32 × String))
  | start (run : AggregatorRun)

section Aggregator

variable (clients : ProverClients) (engine : ZKVMEngine)
  (contents : NewBatchV3 → List VerificationData)

namespace Aggregation

/-- The logs of a new block. -/
def logs (blockNumber : Nat) (batches : List (Bytes32 × String)) : List NewBatchV3 :=
  batches.mapIdx fun index batch => ⟨blockNumber, index, batch.1, batch.2⟩

def block (batches : List (Bytes32 × String)) (state : Aggregation) : Aggregation :=
  { state with
    blockNumber := state.blockNumber + 1
    history := state.history ++ logs (state.blockNumber + 1) batches }

def fetch (run : AggregatorRun) (state : Aggregation) :
    Except FetchFailure (List (NewBatchV3 × AlignedProof) × Nat) :=
  ProofsFetcher.fetch clients engine run.limit run.currentBlock run.logsAnswered
    (fun log => if run.downloaded log then some (contents log) else none) state.history
    state.lastAggregatedBlock

/-- `ProofAggregator::start`.  Without proofs there is nothing to submit. -/
def start (run : AggregatorRun) (state : Aggregation) : Option Aggregation :=
  if run.currentBlock.any fun currentBlock => currentBlock > state.blockNumber then
    none
  else
    match state.fetch clients engine contents run with
    | .error _ => some state
    | .ok (proofs, lastAggregatedBlock) =>
        if proofs.isEmpty || run.submitted then
          some { state with
            lastAggregatedBlock := lastAggregatedBlock
            returned := state.returned ++ proofs }
        else
          some state

end Aggregation

def aggregator : Machine Aggregation AggregationLabel where
  step state label :=
    match label with
    | .block batches => some (state.block batches)
    | .start run => state.start clients engine contents run

/-- The valid proofs of a batch for the engine. -/
def validProofs (data : List VerificationData) : List AlignedProof :=
  data.filterMap fun proof =>
    match ProofsFetcher.compatible clients engine proof with
    | .ok valid => valid
    | .error _ => none

/-- The valid proofs of logged batches, each with the log of its batch. -/
def loggedProofs (logs : List NewBatchV3) : List (NewBatchV3 × AlignedProof) :=
  logs.flatMap fun log => (validProofs clients engine (contents log)).map fun proof => (log, proof)

/-- What a run can take from a batch. -/
def AggregatorRun.proofsOf (run : AggregatorRun) (log : NewBatchV3) : List AlignedProof :=
  if run.downloaded log then validProofs clients engine (contents log) else []

/-- The logs a run passes over within its limit, and the block it stops at. -/
def AggregatorRun.passed (run : AggregatorRun) (currentBlock budget : Nat)
    (logs : List NewBatchV3) : List NewBatchV3 × Nat :=
  match affordable (fun log => (run.proofsOf clients engine contents log).length) budget logs with
  | (passed, []) => (passed, currentBlock)
  | (passed, log :: _) => (passed, log.blockNumber)

def Aggregation.succeeds (run : AggregatorRun) (state : Aggregation) : Bool :=
  match state.fetch clients engine contents run with
  | .error _ => false
  | .ok (proofs, _) => proofs.isEmpty || run.submitted

/-- The condition on a run under which nothing is skipped or returned again:
of the batches with valid proofs that a successful run passes over, it
downloads those of the blocks below the one it stops at, and no other. -/
def StopsBetweenBlocks (state : Aggregation) : AggregationLabel → Prop
  | .block _ => True
  | .start run => state.succeeds clients engine contents run → ∀ currentBlock ∈ run.currentBlock,
      let (passed, stop) := run.passed clients engine contents currentBlock run.limit
        (ProofsFetcher.logsOf state.lastAggregatedBlock currentBlock state.history)
      ∀ log ∈ passed, validProofs clients engine (contents log) ≠ [] →
        (run.downloaded log = true ↔ log.blockNumber < stop)

instance (state : Aggregation) (label : AggregationLabel) :
    Decidable (StopsBetweenBlocks clients engine contents state label) := by
  cases label
  all_goals dsimp only [StopsBetweenBlocks]
  all_goals infer_instance

/-- No valid proof is returned more often than it is logged, and those of the
blocks before the last aggregated one are returned as often. -/
structure FetchedOnce (start : Nat) (state : Aggregation) : Prop where
  atMostOnce : state.returned.Subperm (loggedProofs clients engine contents state.history)
  skipsNone : (loggedProofs clients engine contents (within NewBatchV3.blockNumber start
    state.lastAggregatedBlock state.history)).Subperm state.returned

end Aggregator

variable {clients : ProverClients} {engine : ZKVMEngine}
  {contents : NewBatchV3 → List VerificationData} {run : AggregatorRun}

/-! ## One fetch -/

theorem proofsToAdd_eq {data : List VerificationData} {proofs : List AlignedProof}
    (added : ProofsFetcher.proofsToAdd clients engine data = .ok proofs) :
    proofs = validProofs clients engine data := by
  induction data generalizing proofs with
  | nil =>
      cases added
      rfl
  | cons first rest induction =>
      rw [ProofsFetcher.proofsToAdd] at added
      cases checked : ProofsFetcher.compatible clients engine first with
      | error failure =>
          rw [checked] at added
          cases added
      | ok valid =>
          rw [checked] at added
          cases others : ProofsFetcher.proofsToAdd clients engine rest with
          | error failure =>
              rw [others] at added
              cases added
          | ok later =>
              rw [others] at added
              cases added
              rw [validProofs, List.filterMap_cons, checked, ← validProofs, induction others]
              cases valid with
              | none => rfl
              | some proof => rfl

theorem passed_cons_fits {currentBlock budget : Nat} {log : NewBatchV3} {logs : List NewBatchV3}
    (fits : (run.proofsOf clients engine contents log).length ≤ budget) :
    run.passed clients engine contents currentBlock budget (log :: logs) =
      let rest := run.passed clients engine contents currentBlock
        (budget - (run.proofsOf clients engine contents log).length) logs
      (log :: rest.1, rest.2) := by
  simp only [AggregatorRun.passed, affordable, if_pos fits]
  generalize affordable _ _ logs = parts
  obtain ⟨passed, rest⟩ := parts
  cases rest with
  | nil => rfl
  | cons next later => rfl

theorem passed_cons_stops {currentBlock budget : Nat} {log : NewBatchV3} {logs : List NewBatchV3}
    (stops : ¬ (run.proofsOf clients engine contents log).length ≤ budget) :
    run.passed clients engine contents currentBlock budget (log :: logs) =
      ([], log.blockNumber) := by
  simp only [AggregatorRun.passed, affordable, if_neg stops]

/-- The loop returns what it can take from the logs it passes over. -/
theorem collect_eq {limit currentBlock : Nat} {logs : List NewBatchV3}
    {proofs : List (NewBatchV3 × AlignedProof)}
    {result : List (NewBatchV3 × AlignedProof) × Nat} (room : proofs.length ≤ limit)
    (collected : ProofsFetcher.collect clients engine limit currentBlock
      (fun log => if run.downloaded log then some (contents log) else none) logs proofs =
        .ok result) :
    result = (proofs ++ (run.passed clients engine contents currentBlock
        (limit - proofs.length) logs).1.flatMap (fun log =>
          (run.proofsOf clients engine contents log).map fun proof => (log, proof)),
      (run.passed clients engine contents currentBlock (limit - proofs.length) logs).2) := by
  induction logs generalizing proofs with
  | nil =>
      cases collected
      simp [AggregatorRun.passed, affordable]
  | cons log logs induction =>
      rw [ProofsFetcher.collect] at collected
      cases downloaded : run.downloaded log with
      | false =>
          simp only [downloaded, Bool.false_eq_true, if_false] at collected
          have nothing : run.proofsOf clients engine contents log = [] := by
            rw [AggregatorRun.proofsOf, downloaded]
            rfl
          rw [passed_cons_fits (by simp [nothing])]
          simpa [nothing] using induction room collected
      | true =>
          simp only [downloaded, if_true] at collected
          cases added : ProofsFetcher.proofsToAdd clients engine (contents log) with
          | error failure =>
              rw [added] at collected
              cases collected
          | ok toAdd =>
              rw [added] at collected
              have taken : run.proofsOf clients engine contents log = toAdd := by
                rw [AggregatorRun.proofsOf, downloaded, proofsToAdd_eq added]
                rfl
              change (if proofs.length + toAdd.length > limit then _ else _) = _ at collected
              split at collected
              · rename_i full
                cases collected
                rw [passed_cons_stops (by rw [taken]; omega)]
                simp
              · rename_i fits
                rw [passed_cons_fits (by rw [taken]; omega)]
                have later := induction (by simpa using fits) collected
                rw [later]
                simp [taken, Nat.sub_sub]

/-- What a fetch returns and where it stops, if it succeeds. -/
theorem fetch_eq {state : Aggregation} {result : List (NewBatchV3 × AlignedProof) × Nat}
    (fetched : state.fetch clients engine contents run = .ok result) :
    ∃ currentBlock, run.currentBlock = some currentBlock ∧
      state.lastAggregatedBlock ≤ currentBlock ∧
      let passed := run.passed clients engine contents currentBlock run.limit
        (ProofsFetcher.logsOf state.lastAggregatedBlock currentBlock state.history)
      result = (passed.1.flatMap (fun log =>
        (run.proofsOf clients engine contents log).map fun proof => (log, proof)), passed.2) := by
  unfold Aggregation.fetch ProofsFetcher.fetch at fetched
  split at fetched
  · cases fetched
  · rename_i currentBlock told
    split at fetched
    · cases fetched
    · rename_i later
      split at fetched
      · refine ⟨currentBlock, told, Nat.le_of_not_lt later, ?_⟩
        exact collect_eq (Nat.zero_le _) fetched
      · cases fetched

/-- The logs passed over are a prefix, and the others are not below the block
the run stops at. -/
theorem passed_spec {currentBlock budget : Nat} {logs : List NewBatchV3}
    (sorted : SortedBy NewBatchV3.blockNumber logs)
    (known : ∀ log ∈ logs, log.blockNumber ≤ currentBlock) :
    let passed := run.passed clients engine contents currentBlock budget logs
    passed.2 ≤ currentBlock ∧ (passed.2 = currentBlock ∨ ∃ log ∈ logs, log.blockNumber = passed.2) ∧
      ∃ rest, passed.1 ++ rest = logs ∧ ∀ log ∈ rest, passed.2 ≤ log.blockNumber := by
  have parts := affordable_append
    (fun log => (run.proofsOf clients engine contents log).length) budget logs
  rw [AggregatorRun.passed]
  generalize affordable (fun log => (run.proofsOf clients engine contents log).length) budget
    logs = split at parts ⊢
  obtain ⟨passed, rest⟩ := split
  cases rest with
  | nil => exact ⟨Nat.le_refl _, .inl rfl, [], parts, fun log member => by cases member⟩
  | cons log later =>
      have member : log ∈ logs := parts ▸ List.mem_append_right passed List.mem_cons_self
      refine ⟨known log member, .inr ⟨log, member, rfl⟩, log :: later, parts, ?_⟩
      intro other isRest
      rcases List.mem_cons.mp isRest with rfl | after
      · exact Nat.le_refl _
      · rw [SortedBy, ← parts, List.pairwise_append] at sorted
        exact (List.pairwise_cons.mp sorted.2.1).1 other after

/-- What a run that stops between blocks takes from the logs. -/
theorem flatMap_proofsOf {stop : Nat} {passed : List NewBatchV3}
    (stopsBetween : ∀ log ∈ passed, validProofs clients engine (contents log) ≠ [] →
      (run.downloaded log = true ↔ log.blockNumber < stop)) :
    (passed.flatMap fun log =>
        (run.proofsOf clients engine contents log).map fun proof => (log, proof)) =
      loggedProofs clients engine contents (passed.filter fun log => log.blockNumber < stop) := by
  induction passed with
  | nil => rfl
  | cons log logs induction =>
      have rest := induction fun other member =>
        stopsBetween other (List.mem_cons_of_mem _ member)
      rw [List.flatMap_cons, rest, List.filter_cons]
      have here := stopsBetween log List.mem_cons_self
      by_cases none : validProofs clients engine (contents log) = []
      · have nothing : run.proofsOf clients engine contents log = [] := by
          rw [AggregatorRun.proofsOf, none, ite_self]
        rw [nothing, List.map_nil, List.nil_append]
        split
        · simp [loggedProofs, none]
        · rfl
      · by_cases below : log.blockNumber < stop
        · rw [AggregatorRun.proofsOf, if_pos ((here none).mpr below), if_pos (decide_eq_true below)]
          simp [loggedProofs]
        · rw [AggregatorRun.proofsOf, if_neg (fun downloaded => below ((here none).mp downloaded)),
            if_neg (by simpa using below)]
          rfl

/-! ## Runs of the aggregator -/

/-- The successful runs so far have returned the valid proofs of the blocks
before the last aggregated one, each once and in order. -/
structure Fetched (clients : ProverClients) (engine : ZKVMEngine)
    (contents : NewBatchV3 → List VerificationData) (start : Nat) (state : Aggregation) :
    Prop where
  sorted : SortedBy NewBatchV3.blockNumber state.history
  mined : ∀ log ∈ state.history, log.blockNumber ≤ state.blockNumber
  started : start ≤ state.lastAggregatedBlock
  known : state.lastAggregatedBlock ≤ max start state.blockNumber
  returned : state.returned = loggedProofs clients engine contents
    (within NewBatchV3.blockNumber start state.lastAggregatedBlock state.history)

variable {start : Nat} {state next : Aggregation}

theorem blockNumber_of_mem_logs {blockNumber : Nat} {batches : List (Bytes32 × String)}
    {log : NewBatchV3} (member : log ∈ Aggregation.logs blockNumber batches) :
    log.blockNumber = blockNumber := by
  rw [Aggregation.logs, List.mem_mapIdx] at member
  obtain ⟨index, bound, rfl⟩ := member
  rfl

/-- All logs of a block carry its number. -/
theorem sorted_logs (blockNumber : Nat) (batches : List (Bytes32 × String)) :
    SortedBy NewBatchV3.blockNumber (Aggregation.logs blockNumber batches) := by
  apply List.pairwise_iff_forall_sublist.mpr
  intro earlier later sublist
  have members := sublist.subset
  rw [blockNumber_of_mem_logs (members List.mem_cons_self),
    blockNumber_of_mem_logs (members (by simp))]

theorem fetched_block (batches : List (Bytes32 × String))
    (fetched : Fetched clients engine contents start state) :
    Fetched clients engine contents start (state.block batches) := by
  have added := @blockNumber_of_mem_logs (state.blockNumber + 1) batches
  constructor
  · rw [SortedBy, Aggregation.block, List.pairwise_append]
    refine ⟨fetched.sorted, sorted_logs _ _, ?_⟩
    · intro earlier old later new
      rw [added new]
      exact Nat.le_succ_of_le (fetched.mined earlier old)
  · intro log member
    rcases List.mem_append.mp member with old | new
    · exact Nat.le_succ_of_le (fetched.mined log old)
    · exact Nat.le_of_eq (added new)
  · exact fetched.started
  · have := fetched.known
    change state.lastAggregatedBlock ≤ max start (state.blockNumber + 1)
    omega
  · have empty : within NewBatchV3.blockNumber start state.lastAggregatedBlock
        (Aggregation.logs (state.blockNumber + 1) batches) = [] := by
      apply within_eq_nil
      intro log member
      have := fetched.known
      rw [added member]
      omega
    change state.returned = loggedProofs clients engine contents
      (within NewBatchV3.blockNumber start state.lastAggregatedBlock (_ ++ _))
    rw [within_append_items, empty, List.append_nil]
    exact fetched.returned

/-- A successful run that stops between blocks goes on where the last one stopped. -/
theorem fetched_success {proofs : List (NewBatchV3 × AlignedProof)} {last : Nat}
    (fetched : Fetched clients engine contents start state)
    (known : ∀ currentBlock ∈ run.currentBlock, currentBlock ≤ state.blockNumber)
    (stopsBetween : ∀ currentBlock ∈ run.currentBlock,
      let (passed, stop) := run.passed clients engine contents currentBlock run.limit
        (ProofsFetcher.logsOf state.lastAggregatedBlock currentBlock state.history)
      ∀ log ∈ passed, validProofs clients engine (contents log) ≠ [] →
        (run.downloaded log = true ↔ log.blockNumber < stop))
    (ran : state.fetch clients engine contents run = .ok (proofs, last)) :
    Fetched clients engine contents start { state with
      lastAggregatedBlock := last
      returned := state.returned ++ proofs } := by
  obtain ⟨currentBlock, told, later, same⟩ := fetch_eq ran
  have between := stopsBetween currentBlock told
  have mined := known currentBlock told
  generalize hlogs : ProofsFetcher.logsOf state.lastAggregatedBlock currentBlock state.history =
    logs at same between
  have inRange : ∀ log ∈ logs, log ∈ state.history ∧
      state.lastAggregatedBlock ≤ log.blockNumber ∧ log.blockNumber ≤ currentBlock := by
    intro log member
    rw [← hlogs, ProofsFetcher.logsOf, List.mem_filter, decide_eq_true_eq] at member
    exact member
  have sorted : SortedBy NewBatchV3.blockNumber logs := by
    rw [← hlogs]
    exact fetched.sorted.filter _
  obtain ⟨bounded, reached, rest, parts, above⟩ := @passed_spec clients engine contents run
    currentBlock run.limit logs sorted fun log member => (inRange log member).2.2
  generalize run.passed clients engine contents currentBlock run.limit logs = pair
    at same between bounded reached parts above
  obtain ⟨passed, stop⟩ := pair
  cases same
  have stopsLater : state.lastAggregatedBlock ≤ stop := by
    rcases reached with same | ⟨log, member, same⟩
    · exact le_of_le_of_eq later same.symm
    · exact le_of_le_of_eq (inRange log member).2.1 same
  have taken : (passed.filter fun log => log.blockNumber < stop) =
      within NewBatchV3.blockNumber state.lastAggregatedBlock stop state.history := by
    have none : (rest.filter fun log => log.blockNumber < stop) = [] := by
      rw [List.filter_eq_nil_iff]
      intro log member
      simpa using above log member
    calc
      passed.filter (fun log => log.blockNumber < stop) =
          (passed ++ rest).filter (fun log => log.blockNumber < stop) := by
        rw [List.filter_append, none, List.append_nil]
      _ = within NewBatchV3.blockNumber state.lastAggregatedBlock stop state.history := by
        rw [parts, ← hlogs, ProofsFetcher.logsOf, List.filter_filter, within]
        apply List.filter_congr
        intro log member
        rw [← Bool.decide_and, decide_eq_decide]
        constructor
        · rintro ⟨below, first, -⟩
          exact ⟨first, below⟩
        · rintro ⟨first, below⟩
          exact ⟨below, first, by omega⟩
  refine ⟨fetched.sorted, fetched.mined, fetched.started.trans stopsLater, ?_, ?_⟩
  · change stop ≤ max start state.blockNumber
    have := bounded
    simp only at this
    omega
  · change state.returned ++ _ = _
    rw [flatMap_proofsOf between, taken, fetched.returned, loggedProofs, loggedProofs,
      loggedProofs, ← List.flatMap_append, within_append fetched.sorted fetched.started stopsLater]

theorem fetched_step {label : AggregationLabel}
    (fetched : Fetched clients engine contents start state)
    (guarded : StopsBetweenBlocks clients engine contents state label)
    (stepped : (aggregator clients engine contents).step state label = some next) :
    Fetched clients engine contents start next := by
  cases label with
  | block batches =>
      cases stepped
      exact fetched_block batches fetched
  | start run =>
      simp only [aggregator, Aggregation.start] at stepped
      split at stepped
      · cases stepped
      · rename_i known
        split at stepped
        · cases stepped
          exact fetched
        · rename_i proofs stop ran
          split at stepped
          · rename_i succeeded
            cases stepped
            refine fetched_success fetched ?_ ?_ ran
            · intro currentBlock told
              rw [Option.mem_def.mp told] at known
              simpa using known
            · apply guarded
              rw [Aggregation.succeeds, ran]
              exact succeeded
          · cases stepped
            exact fetched

/-- A chain without blocks, and the block the aggregator is set up with. -/
def initialAggregation (start : Nat) : Aggregation :=
  { blockNumber := 0
    history := []
    lastAggregatedBlock := start
    returned := [] }

/-- Over every chain history and every sequence of runs that stop between
blocks, each valid proof is fetched at most once, and exactly once if it is
logged in a block before the last aggregated one. -/
theorem fetched_exactly_once (clients : ProverClients) (engine : ZKVMEngine)
    (contents : NewBatchV3 → List VerificationData) (start : Nat)
    (labels : List AggregationLabel) (reached : Aggregation)
    (meets : (aggregator clients engine contents).Meets
      (StopsBetweenBlocks clients engine contents) (initialAggregation start) labels)
    (ran : (aggregator clients engine contents).run (initialAggregation start) labels =
      some reached) :
    FetchedOnce clients engine contents start reached := by
  have fetched : Fetched clients engine contents start reached := by
    refine Machine.run_preserves ?_ ?_ meets ran
    · exact fetched_step
    · refine ⟨List.Pairwise.nil, ?_, Nat.le_refl _, Nat.le_max_left _ _, rfl⟩
      intro log member
      cases member
  constructor
  · rw [fetched.returned]
    apply List.Sublist.subperm
    exact List.filter_sublist.flatMap _
  · rw [fetched.returned]

namespace Sample

/-- Every batch has one proof, which the SDK accepts. -/
def batchContents (_ : NewBatchV3) : List VerificationData :=
  [{ provingSystem := .sp1
     proof := []
     pubInput := none
     verificationKey := none
     vmProgramCode := some []
     proofGeneratorAddr := 0 }]

def proverClients : ProverClients :=
  { deserializeSP1 := fun proof => some ⟨.compressed proof, []⟩
    setupSP1 := fun _ => some Bytes32.zero
    verifySP1 := fun _ _ => true
    deserializeRisc0 := fun _ => none
    verifyRisc0 := fun _ _ => false }

def oneBatch : List (Bytes32 × String) :=
  [(Bytes32.zero, "batch")]

/-- Everything is answered, and the proofs are aggregated. -/
def aggregatorRun (currentBlock limit : Nat) : AggregatorRun :=
  { limit := limit
    currentBlock := some currentBlock
    logsAnswered := true
    downloaded := fun _ => true
    submitted := true }

/-- The second batch of the first run is over the limit and in a later block. -/
def betweenBlocks : List AggregationLabel :=
  [.block oneBatch, .block oneBatch, .block [], .start (aggregatorRun 2 1),
    .start (aggregatorRun 3 1)]

/-- Both runs read the block of the batch. -/
def sameBlockTwice : List AggregationLabel :=
  [.block oneBatch, .start (aggregatorRun 1 10), .start (aggregatorRun 1 10)]

/-- The batch cannot be downloaded when its block is read. -/
def failedDownload : List AggregationLabel :=
  [.block oneBatch, .block [], .start { aggregatorRun 2 10 with downloaded := fun _ => false },
    .start (aggregatorRun 2 10)]

end Sample

theorem fetched_exactly_once_betweenBlocks :
    ∃ reached, (aggregator Sample.proverClients .sp1 Sample.batchContents).run (initialAggregation 0)
        Sample.betweenBlocks = some reached ∧
      reached.returned.length = 2 ∧
      FetchedOnce Sample.proverClients .sp1 Sample.batchContents 0 reached := by
  have found : ((aggregator Sample.proverClients .sp1 Sample.batchContents).run (initialAggregation 0)
      Sample.betweenBlocks).any (fun reached => decide (reached.returned.length = 2)) = true := by
    decide +kernel
  obtain ⟨reached, ran, holds⟩ := (Option.any_eq_true _ _).mp found
  refine ⟨reached, ran, of_decide_eq_true holds, ?_⟩
  exact fetched_exactly_once _ _ _ _ _ _ (by decide +kernel) ran

theorem fetched_twice_or_never :
    (∃ reached, (aggregator Sample.proverClients .sp1 Sample.batchContents).run (initialAggregation 0)
        Sample.sameBlockTwice = some reached ∧
      ¬ FetchedOnce Sample.proverClients .sp1 Sample.batchContents 0 reached) ∧
    ∃ reached, (aggregator Sample.proverClients .sp1 Sample.batchContents).run (initialAggregation 0)
        Sample.failedDownload = some reached ∧
      ¬ FetchedOnce Sample.proverClients .sp1 Sample.batchContents 0 reached := by
  constructor
  · have found : ((aggregator Sample.proverClients .sp1 Sample.batchContents).run (initialAggregation 0)
        Sample.sameBlockTwice).any (fun reached => decide (reached.returned.length = 2 ∧
          (loggedProofs Sample.proverClients .sp1 Sample.batchContents reached.history).length = 1)) =
        true := by
      decide +kernel
    obtain ⟨reached, ran, holds⟩ := (Option.any_eq_true _ _).mp found
    obtain ⟨twice, once⟩ := of_decide_eq_true holds
    refine ⟨reached, ran, ?_⟩
    intro fetched
    have := fetched.atMostOnce.length_le
    omega
  · have found : ((aggregator Sample.proverClients .sp1 Sample.batchContents).run (initialAggregation 0)
        Sample.failedDownload).any (fun reached => decide (reached.returned.length = 0 ∧
          (loggedProofs Sample.proverClients .sp1 Sample.batchContents (within NewBatchV3.blockNumber 0
            reached.lastAggregatedBlock reached.history)).length = 1)) = true := by
      decide +kernel
    obtain ⟨reached, ran, holds⟩ := (Option.any_eq_true _ _).mp found
    obtain ⟨never, once⟩ := of_decide_eq_true holds
    refine ⟨reached, ran, ?_⟩
    intro fetched
    have := fetched.skipsNone.length_le
    omega

end AlignedLayer
