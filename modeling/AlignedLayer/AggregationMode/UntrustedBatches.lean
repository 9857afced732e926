import AlignedLayer.AggregationMode.FetchOnce

/-!
# Batches that anyone can post

The entries of a downloaded batch are converted one by one.  The bytes of an
image id are copied into thirty-two bytes whatever their number is, and the
setup of an SP1 program takes any bytes for an ELF file.
-/

namespace AlignedLayer

/-- The entry can be converted for the engine, whether it is usable or not. -/
def Convertible (clients : ProverClients) (engine : ZKVMEngine) (data : VerificationData) : Prop :=
  match engine with
  | .sp1 => data.provingSystem = .sp1 → (clients.deserializeSP1 data.proof).isSome →
      ∀ elf ∈ data.vmProgramCode, (clients.setupSP1 elf).isSome
  | .risc0 => data.provingSystem = .risc0 → ∀ code ∈ data.vmProgramCode, code.length = 32

instance (clients : ProverClients) (engine : ZKVMEngine) (data : VerificationData) :
    Decidable (Convertible clients engine data) := by
  cases engine
  all_goals dsimp only [Convertible]
  all_goals infer_instance

section

variable (clients : ProverClients) (engine : ZKVMEngine)
  (contents : NewBatchV3 → List VerificationData)

/-- The logs whose batches a run reads: those it passes over and the one it
stops at. -/
def AggregatorRun.reads (run : AggregatorRun) (budget : Nat) (logs : List NewBatchV3) :
    List NewBatchV3 :=
  match affordable (fun log => (run.proofsOf clients engine contents log).length) budget logs with
  | (passed, rest) => passed ++ rest.take 1

/-- The fetch does not panic.  It returns the usable entries of the batches
within the limit, whatever else is in them, and the blocks it subtracts for
its log are in order. -/
structure Aggregation.FetchSurvives (run : AggregatorRun) (state : Aggregation) : Prop where
  returns : state.fetch clients engine contents run ≠ .error .panic
  usable : ∀ proofs stop, state.fetch clients engine contents run = .ok (proofs, stop) →
    ∃ currentBlock ∈ run.currentBlock, stop ≤ currentBlock ∧
      let passed := run.passed clients engine contents currentBlock run.limit
        (ProofsFetcher.logsOf state.lastAggregatedBlock currentBlock state.history)
      stop = passed.2 ∧
        proofs = passed.1.flatMap fun log =>
          (if run.downloaded log then validProofs clients engine (contents log) else []).map
            fun proof => (log, proof)

end

variable {clients : ProverClients} {engine : ZKVMEngine}
  {contents : NewBatchV3 → List VerificationData} {run : AggregatorRun}

/-! ## One entry and one batch -/

theorem Bytes32.ofSlice_eq_none_iff {bytes : Bytes} :
    Bytes32.ofSlice bytes = none ↔ bytes.length ≠ 32 := by
  rw [Bytes32.ofSlice]
  split
  · rename_i length
    rw [List.size_toArray] at length
    simp [length]
  · rename_i length
    rw [List.size_toArray] at length
    simp [length]

/-- The conversion panics on nothing but a program code it cannot take. -/
theorem compatible_cases (clients : ProverClients) (engine : ZKVMEngine)
    (data : VerificationData) :
    (Convertible clients engine data ∧
        ∃ valid, ProofsFetcher.compatible clients engine data = .ok valid) ∨
      (¬ Convertible clients engine data ∧
        ProofsFetcher.compatible clients engine data = .error .panic) := by
  cases engine with
  | sp1 =>
      rw [ProofsFetcher.compatible, Convertible]
      by_cases other : data.provingSystem = .sp1
      · rw [if_neg (not_not.mpr other)]
        cases code : data.vmProgramCode with
        | none => exact .inl ⟨by simp, none, rfl⟩
        | some elf =>
            cases decoded : clients.deserializeSP1 data.proof with
            | none => exact .inl ⟨by simp, none, rfl⟩
            | some proof =>
                dsimp only
                rw [SP1ProofWithPubValuesAndElf.new]
                cases ready : clients.setupSP1 elf with
                | none => exact .inr ⟨by simp [other, ready], rfl⟩
                | some vk =>
                    refine .inl ⟨by simp [ready], ?_⟩
                    dsimp only
                    split
                    · split
                      · exact ⟨_, rfl⟩
                      · exact ⟨_, rfl⟩
                    · exact ⟨_, rfl⟩
      · rw [if_pos other]
        exact .inl ⟨fun same => absurd same other, none, rfl⟩
  | risc0 =>
      rw [ProofsFetcher.compatible, Convertible]
      by_cases other : data.provingSystem = .risc0
      · rw [if_neg (not_not.mpr other)]
        cases code : data.vmProgramCode with
        | none => exact .inl ⟨by simp, none, rfl⟩
        | some bytes =>
            dsimp only
            cases copied : Bytes32.ofSlice bytes with
            | none =>
                have length := Bytes32.ofSlice_eq_none_iff.mp copied
                exact .inr ⟨by simp [other, length], rfl⟩
            | some imageId =>
                have length : bytes.length = 32 := by
                  by_contra wrong
                  rw [Bytes32.ofSlice_eq_none_iff.mpr wrong] at copied
                  cases copied
                refine .inl ⟨by simp [length], ?_⟩
                dsimp only
                split
                · exact ⟨_, rfl⟩
                · exact ⟨_, rfl⟩
      · rw [if_pos other]
        exact .inl ⟨fun same => absurd same other, none, rfl⟩

theorem proofsToAdd_cases (clients : ProverClients) (engine : ZKVMEngine)
    (data : List VerificationData) :
    ((∀ entry ∈ data, Convertible clients engine entry) ∧
        ProofsFetcher.proofsToAdd clients engine data = .ok (validProofs clients engine data)) ∨
      ((∃ entry ∈ data, ¬ Convertible clients engine entry) ∧
        ProofsFetcher.proofsToAdd clients engine data = .error .panic) := by
  induction data with
  | nil => exact .inl ⟨fun entry member => absurd member List.not_mem_nil, rfl⟩
  | cons first rest ih =>
      rw [ProofsFetcher.proofsToAdd]
      rcases compatible_cases clients engine first with
        ⟨convertible, valid, checked⟩ | ⟨refused, panics⟩
      · rcases ih with ⟨others, added⟩ | ⟨⟨entry, member, refused⟩, panics⟩
        · refine .inl ⟨List.forall_mem_cons.mpr ⟨convertible, others⟩, ?_⟩
          have all : validProofs clients engine (first :: rest) =
              valid.toList ++ validProofs clients engine rest := by
            rw [validProofs, List.filterMap_cons, checked, ← validProofs]
            cases valid with
            | none => rfl
            | some proof => rfl
          rw [checked, added, all]
          rfl
        · refine .inr ⟨⟨entry, List.mem_cons_of_mem first member, refused⟩, ?_⟩
          rw [checked, panics]
          rfl
      · refine .inr ⟨⟨first, List.mem_cons_self, refused⟩, ?_⟩
        rw [panics]
        rfl

/-! ## The loop over the logs -/

theorem reads_cons_fits {budget : Nat} {log : NewBatchV3} {logs : List NewBatchV3}
    (fits : (run.proofsOf clients engine contents log).length ≤ budget) :
    run.reads clients engine contents budget (log :: logs) =
      log :: run.reads clients engine contents
        (budget - (run.proofsOf clients engine contents log).length) logs := by
  simp only [AggregatorRun.reads, affordable, if_pos fits]
  rfl

theorem reads_cons_stops {budget : Nat} {log : NewBatchV3} {logs : List NewBatchV3}
    (stops : ¬ (run.proofsOf clients engine contents log).length ≤ budget) :
    run.reads clients engine contents budget (log :: logs) = [log] := by
  simp only [AggregatorRun.reads, affordable, if_neg stops]
  rfl

/-- The loop panics exactly when a batch it reads has an entry that cannot be
converted. -/
theorem collect_eq_panic_iff {limit currentBlock : Nat} {logs : List NewBatchV3}
    {proofs : List (NewBatchV3 × AlignedProof)} (room : proofs.length ≤ limit) :
    ProofsFetcher.collect clients engine limit currentBlock
        (fun log => if run.downloaded log then some (contents log) else none) logs proofs =
          .error .panic ↔
      ∃ log ∈ run.reads clients engine contents (limit - proofs.length) logs,
        run.downloaded log = true ∧
          ∃ entry ∈ contents log, ¬ Convertible clients engine entry := by
  induction logs generalizing proofs with
  | nil => simp [ProofsFetcher.collect, AggregatorRun.reads, affordable]
  | cons log logs ih =>
      rw [ProofsFetcher.collect]
      cases downloaded : run.downloaded log with
      | false =>
          have nothing : (run.proofsOf clients engine contents log).length = 0 := by
            rw [AggregatorRun.proofsOf, downloaded]
            rfl
          rw [reads_cons_fits (nothing ▸ Nat.zero_le _), nothing, Nat.sub_zero]
          simp only [Bool.false_eq_true, if_false, List.exists_mem_cons_iff, downloaded,
            false_and, false_or]
          exact ih room
      | true =>
          simp only [if_true]
          rcases proofsToAdd_cases clients engine (contents log) with
            ⟨convertible, added⟩ | ⟨refused, panics⟩
          · have fine : ¬ ∃ entry ∈ contents log, ¬ Convertible clients engine entry := by
              rintro ⟨entry, member, refused⟩
              exact refused (convertible entry member)
            have taken : run.proofsOf clients engine contents log =
                validProofs clients engine (contents log) := by
              rw [AggregatorRun.proofsOf, if_pos downloaded]
            rw [added]
            change (if proofs.length + (validProofs clients engine (contents log)).length > limit
              then _ else _) = _ ↔ _
            by_cases full :
                proofs.length + (validProofs clients engine (contents log)).length > limit
            · rw [if_pos full, reads_cons_stops (by rw [taken]; omega)]
              simp only [List.mem_singleton, exists_eq_left, fine, and_false, iff_false]
              intro impossible
              cases impossible
            · rw [if_neg full, reads_cons_fits (by rw [taken]; omega)]
              simp only [List.exists_mem_cons_iff, fine, and_false, false_or]
              have later := @ih (proofs ++ (validProofs clients engine (contents log)).map
                fun proof => (log, proof)) (by simpa using Nat.le_of_not_lt full)
              rw [later, taken, List.length_append, List.length_map, Nat.sub_sub]
          · rw [panics]
            have read : log ∈ run.reads clients engine contents (limit - proofs.length)
                (log :: logs) := by
              by_cases fits : (run.proofsOf clients engine contents log).length ≤
                  limit - proofs.length
              · rw [reads_cons_fits fits]
                exact List.mem_cons_self
              · rw [reads_cons_stops fits]
                exact List.mem_cons_self
            exact iff_of_true rfl ⟨log, read, downloaded, refused⟩

theorem error_of_collect {limit currentBlock : Nat}
    {download : NewBatchV3 → Option (List VerificationData)} {logs : List NewBatchV3}
    {proofs : List (NewBatchV3 × AlignedProof)} {failure : FetchFailure}
    (collected : ProofsFetcher.collect clients engine limit currentBlock download logs proofs =
      .error failure) : failure = .panic := by
  induction logs generalizing proofs with
  | nil => cases collected
  | cons log logs ih =>
      rw [ProofsFetcher.collect] at collected
      split at collected
      · exact ih collected
      · rename_i data downloaded
        rcases proofsToAdd_cases clients engine data with ⟨-, added⟩ | ⟨-, panics⟩
        · rw [added] at collected
          change (if _ > limit then _ else _) = _ at collected
          split at collected
          · cases collected
          · exact ih collected
        · rw [panics] at collected
          cases collected
          rfl

/-! ## The fetch -/

theorem passed_stop_le {currentBlock budget : Nat} {logs : List NewBatchV3}
    (known : ∀ log ∈ logs, log.blockNumber ≤ currentBlock) :
    (run.passed clients engine contents currentBlock budget logs).2 ≤ currentBlock := by
  have parts := affordable_append
    (fun log => (run.proofsOf clients engine contents log).length) budget logs
  rw [AggregatorRun.passed]
  generalize affordable (fun log => (run.proofsOf clients engine contents log).length)
    budget logs = split at parts ⊢
  obtain ⟨passed, rest⟩ := split
  cases rest with
  | nil => exact Nat.le_refl _
  | cons log later =>
      apply known log
      rw [← parts]
      exact List.mem_append_right passed List.mem_cons_self

theorem fetch_eq_panic_iff {state : Aggregation} :
    state.fetch clients engine contents run = .error .panic ↔
      ∃ currentBlock ∈ run.currentBlock, state.lastAggregatedBlock ≤ currentBlock ∧
        run.logsAnswered = true ∧
          ∃ log ∈ run.reads clients engine contents run.limit
              (ProofsFetcher.logsOf state.lastAggregatedBlock currentBlock state.history),
            run.downloaded log = true ∧
              ∃ entry ∈ contents log, ¬ Convertible clients engine entry := by
  unfold Aggregation.fetch ProofsFetcher.fetch
  cases told : run.currentBlock with
  | none => simp
  | some currentBlock =>
      dsimp only
      by_cases later : currentBlock < state.lastAggregatedBlock
      · rw [if_pos later]
        simp [Nat.not_le.mpr later]
      · rw [if_neg later]
        cases answered : run.logsAnswered with
        | false => simp
        | true =>
            have collected := @collect_eq_panic_iff clients engine contents run run.limit
              currentBlock
              (ProofsFetcher.logsOf state.lastAggregatedBlock currentBlock state.history) []
              (Nat.zero_le _)
            rw [if_pos rfl, collected]
            simp [Nat.le_of_not_lt later]

/-- With the answers of the node only a panic keeps a fetch from returning. -/
theorem exists_fetch {state : Aggregation} {currentBlock : Nat}
    (told : run.currentBlock = some currentBlock) (later : state.lastAggregatedBlock ≤ currentBlock)
    (answered : run.logsAnswered = true)
    (survives : state.fetch clients engine contents run ≠ .error .panic) :
    ∃ result, state.fetch clients engine contents run = .ok result := by
  cases fetched : state.fetch clients engine contents run with
  | ok result => exact ⟨result, rfl⟩
  | error failure =>
      have collected : ProofsFetcher.collect clients engine run.limit currentBlock
          (fun log => if run.downloaded log then some (contents log) else none)
          (ProofsFetcher.logsOf state.lastAggregatedBlock currentBlock state.history) [] =
            .error failure := by
        rw [← fetched, Aggregation.fetch, told, ProofsFetcher.fetch.eq_def]
        dsimp only
        rw [if_neg (Nat.not_lt.mpr later), if_pos answered]
      rw [error_of_collect collected] at fetched
      exact absurd fetched survives

/-- For every chain, data service and list of entries, the fetch survives
exactly when every entry of the batches it reads can be converted. -/
theorem fetch_survives_iff (clients : ProverClients) (engine : ZKVMEngine)
    (contents : NewBatchV3 → List VerificationData) (run : AggregatorRun) (state : Aggregation) :
    state.FetchSurvives clients engine contents run ↔
      ∀ currentBlock ∈ run.currentBlock, state.lastAggregatedBlock ≤ currentBlock →
        run.logsAnswered = true →
          ∀ log ∈ run.reads clients engine contents run.limit
              (ProofsFetcher.logsOf state.lastAggregatedBlock currentBlock state.history),
            run.downloaded log = true →
              ∀ entry ∈ contents log, Convertible clients engine entry := by
  constructor
  · intro survives currentBlock told later answered log read downloaded entry member
    by_contra refused
    apply survives.returns
    exact fetch_eq_panic_iff.mpr
      ⟨currentBlock, told, later, answered, log, read, downloaded, entry, member, refused⟩
  · intro convertible
    constructor
    · intro panicked
      obtain ⟨currentBlock, told, later, answered, log, read, downloaded, entry, member,
        refused⟩ := fetch_eq_panic_iff.mp panicked
      exact refused (convertible currentBlock told later answered log read downloaded entry member)
    · intro proofs stop fetched
      obtain ⟨currentBlock, told, -, same⟩ := fetch_eq fetched
      cases same
      refine ⟨currentBlock, told, passed_stop_le ?_, rfl, rfl⟩
      intro log member
      rw [ProofsFetcher.logsOf, List.mem_filter, decide_eq_true_eq] at member
      exact member.2.2

namespace Sample

/-- The image id has one byte. -/
def shortImageId (_ : NewBatchV3) : List VerificationData :=
  [{ provingSystem := .risc0
     proof := []
     pubInput := some []
     verificationKey := none
     vmProgramCode := some [0]
     proofGeneratorAddr := 0 }]

end Sample

/-- One entry with a short program code stops the aggregator. -/
theorem short_image_id_panics :
    ¬ Aggregation.FetchSurvives Sample.proverClients .risc0 Sample.shortImageId
      (Sample.aggregatorRun 1 10) ((initialAggregation 0).block Sample.oneBatch) := by
  intro survives
  apply survives.returns
  decide +kernel

end AlignedLayer
