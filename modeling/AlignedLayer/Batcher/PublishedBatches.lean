import AlignedLayer.Batcher.DataServices

/-!
# Published batches stay available

A transaction is sent with the pointer that was made when its batch was
uploaded.  Uploads only add objects, and what is stored under the name of a
root are the bytes of some batch with this root.
-/

namespace AlignedLayer

variable {environment : Environment} {config : Config}

/-! ## Numbers of batches -/

/-- A step goes on with the batch in flight, or extracts the next one. -/
theorem Change.numbering {system : System} {label : Label} {after : Shared}
    (change : Change environment config system label after) :
    (after.batches = system.shared.batches ∧
      ∀ batch stage, after.batch = some (batch, stage) →
        ∃ earlier, system.shared.batch = some (batch, earlier)) ∨
    (after.batches = system.shared.batches + 1 ∧
      ∀ batch stage, after.batch = some (batch, stage) → batch.number = system.shared.batches) := by
  have same : ∀ {middle : Shared}, middle.batch = system.shared.batch →
      ∀ batch stage, middle.batch = some (batch, stage) →
        ∃ earlier, system.shared.batch = some (batch, earlier) := by
    intro middle unchanged batch stage found
    exact ⟨stage, unchanged ▸ found⟩
  have entered : ∀ {middle : Shared} {other : InFlight} {earlier later : Stage},
      system.shared.batch = some (other, earlier) → middle.batch = some (other, later) →
      ∀ batch stage, middle.batch = some (batch, stage) →
        ∃ earlier, system.shared.batch = some (batch, earlier) := by
    intro middle other earlier later found entering batch stage current
    rw [entering, Option.some.injEq, Prod.mk.injEq] at current
    obtain ⟨rfl, -⟩ := current
    exact ⟨earlier, found⟩
  have flushed : ∀ {middle : Shared} {origin : FlushOrigin},
      middle.batch = system.shared.batch → middle.batches = system.shared.batches →
      (middle.afterFlush origin).batches = system.shared.batches ∧
        ∀ batch stage, (middle.afterFlush origin).batch = some (batch, stage) →
          ∃ earlier, system.shared.batch = some (batch, earlier) := by
    intro middle origin unchanged counted
    cases origin with
    | disabledVerifiers => exact ⟨counted, same unchanged⟩
    | insufficientBalance =>
        rw [Shared.afterFlush]
        cases work : middle.batch with
        | none => exact ⟨counted, same unchanged⟩
        | some other =>
            refine ⟨counted, fun batch stage current => ?_⟩
            cases current
  cases change with
  | evict running full found removed =>
      obtain ⟨userStates, cells, rfl⟩ := Shared.evict_eq_ok removed
      exact .inl ⟨rfl, same rfl⟩
  | evictPanics running full found removed =>
      obtain ⟨userStates, cells, rfl⟩ := Shared.evict_eq_error removed
      exact .inl ⟨rfl, same rfl⟩
  | @extract layout gasPrice blockNumber idle =>
      rcases Shared.extract_cases environment config layout
        (gasPrice * gasPricePercentageMultiplier / percentageDivider) blockNumber system.shared
        with ⟨rest, -, equation⟩ | ⟨entries, rest, extracted, equation⟩
      · rw [equation]
        exact .inl ⟨rfl, same rfl⟩
      · rw [equation]
        refine .inr ⟨rfl, fun batch stage current => ?_⟩
        simp only [Option.some.injEq, Prod.mk.injEq] at current
        obtain ⟨rfl, -⟩ := current
        rfl
  | advance found unsent later => exact .inl ⟨rfl, entered found rfl⟩
  | send labelled found unsent answered => exact .inl ⟨rfl, entered found rfl⟩
  | giveUpWaiting found => exact .inl ⟨rfl, entered found rfl⟩
  | endCancel found => exact .inl ⟨rfl, entered found rfl⟩
  | receipt found included => exact .inl ⟨rfl, entered found rfl⟩
  | @updateUser layout address batch users found member free =>
      obtain ⟨cells, equation⟩ := Shared.updateUser_eq layout address system.shared
      rw [equation]
      exact .inl ⟨rfl, entered found rfl⟩
  | @updateRestoredUser layout address batch users found member free =>
      obtain ⟨cells, equation⟩ := Shared.updateUser_eq layout address system.shared
      rw [equation]
      exact .inl ⟨rfl, entered found rfl⟩
  | @cleanupUser layout address batch users found free =>
      obtain ⟨cells, equation⟩ := Shared.cleanupUser_eq layout address system.shared
      rw [equation]
      exact .inl ⟨rfl, entered found rfl⟩
  | close found closed updated later => exact .inl ⟨rfl, entered found rfl⟩
  | endRestored found => exact .inl ⟨rfl, fun batch stage current => by cases current⟩
  | @respond serializationFails batch found =>
      refine .inl ⟨rfl, fun other stage current => ?_⟩
      simp only [Shared.respond] at current
      split at current
      · cases current
      · simp only [Option.some.injEq, Prod.mk.injEq] at current
        obtain ⟨rfl, -⟩ := current
        exact ⟨_, found⟩
  | restore found ran =>
      obtain ⟨queue, users, lost, rfl, -⟩ := Shared.restore_eq_some ran
      exact .inl ⟨rfl, entered found rfl⟩
  | flushAndReset labelled flushing => exact .inl (flushed rfl rfl)
  | insertNonpaying flushing configured => exact .inl (flushed rfl rfl)
  | _ => exact .inl ⟨rfl, same rfl⟩

/-! ## Objects and pointers -/

/-- What holds of every batch that is uploaded. -/
structure Uploadable (environment : Environment) (config : Config)
    (entries : List BatchQueueEntry) : Prop where
  nonempty : entries ≠ []
  size_le : (batchBytes entries).length ≤ config.maxBatchByteSize
  length_le : entries.length ≤ config.maxBatchProofQty
  commitments : ∀ entry ∈ entries, entry.verificationDataCommitment =
    entry.noncedVerificationData.commitment environment.keccak

/-- The bytes are those of a batch whose root is in the URL. -/
def Uploaded (environment : Environment) (config : Config) (services : DataServices)
    (url : String) (bytes : Bytes) : Prop :=
  ∃ entries, Uploadable environment config entries ∧ bytes = batchBytes entries ∧
    ∃ endpoint ∈ services.endpoints, url = objectUrl endpoint (fileName
      (environment.merkleRoot (entries.map BatchQueueEntry.verificationDataCommitment)))

structure Published (environment : Environment) (config : Config) (services : DataServices)
    (state : Publishing) : Prop where
  attested : ∃ received, AllAttested environment config received state.system
  uploadable : ∀ batch stage, state.system.shared.batch = some (batch, stage) →
    Uploadable environment config batch.entries
  current_lt : ∀ batch stage, state.system.shared.batch = some (batch, stage) →
    batch.number < state.system.shared.batches
  fresh : ∀ number, state.system.shared.batches ≤ number → state.batchDataPointers number = none
  holds : state.objects.Holds (Uploaded environment config services)
  current : ∀ batch stage pointer, state.system.shared.batch = some (batch, stage) →
    state.batchDataPointers batch.number = some pointer →
      Locates services state.objects (fileName batch.call.batchMerkleRoot) pointer
  sent : ∀ transaction ∈ state.system.shared.chain.transactions,
    Uploadable environment config transaction.entries
  transactions : ∀ transaction ∈ state.system.shared.chain.transactions,
    ∃ pointer, state.batchDataPointers transaction.batchNumber = some pointer ∧
      Locates services state.objects (fileName transaction.call.batchMerkleRoot) pointer

namespace Published

variable {services : DataServices} {state : Publishing}

/-- A step of the batcher itself. -/
theorem batcher (published : Published environment config services state) {label : Label}
    {next : System} (pointer : label.passesPointer = true → state.hasPointer = true)
    (stepped : (AlignedLayer.batcher environment config).step state.system label = some next) :
    Published environment config services { state with system := next } where
  attested := by
    obtain ⟨received, attested⟩ := published.attested
    exact ⟨_, allAttested_step attested stepped⟩
  uploadable batch stage current := by
    rcases (step_change stepped).batch_origin current with
      ⟨earlier, before⟩ | ⟨gasPrice, ⟨extracted⟩, -⟩
    · exact published.uploadable batch earlier before
    · obtain ⟨received, attested⟩ := published.attested
      refine ⟨extracted.ne_nil, extracted.length_batchBytes_le, extracted.length_le, ?_⟩
      intro entry member
      have queued := (Shared.items_of_extracted extracted).mem_iff.mpr
        (List.mem_append_left _ member)
      exact (attested.queued entry queued).commitment
  current_lt batch stage current := by
    rcases (step_change stepped).numbering with ⟨counted, goesOn⟩ | ⟨counted, extracted⟩
    · obtain ⟨earlier, before⟩ := goesOn batch stage current
      rw [counted]
      exact published.current_lt batch earlier before
    · rw [counted, extracted batch stage current]
      exact Nat.lt_succ_self _
  fresh number above := by
    rcases (step_change stepped).numbering with ⟨counted, -⟩ | ⟨counted, -⟩
    · exact published.fresh number (counted ▸ above)
    · rw [counted] at above
      exact published.fresh number (Nat.le_of_succ_le above)
  holds := published.holds
  current batch stage batchDataPointer current found := by
    rcases (step_change stepped).numbering with ⟨-, goesOn⟩ | ⟨-, extracted⟩
    · obtain ⟨earlier, before⟩ := goesOn batch stage current
      exact published.current batch earlier batchDataPointer before found
    · -- The number of a new batch has no pointer yet.
      have none := published.fresh batch.number (Nat.le_of_eq (extracted batch stage current).symm)
      rw [none] at found
      cases found
  sent transaction member := by
    rcases (step_change stepped).mem_transactions member with
      before | ⟨batch, stage, answer, current, -, -, entries, -⟩
    · exact published.sent transaction before
    · rw [entries]
      exact published.uploadable batch stage current
  transactions transaction member := by
    rcases (step_change stepped).mem_transactions member with
      before | ⟨batch, stage, answer, current, labelled, number, -, call⟩
    · exact published.transactions transaction before
    · have passes : label.passesPointer = true := by
        rcases labelled with rfl | rfl
        · rfl
        · rfl
      have has := pointer passes
      rw [Publishing.hasPointer, current] at has
      obtain ⟨batchDataPointer, found⟩ := Option.isSome_iff_exists.mp has
      rw [number, call]
      exact ⟨batchDataPointer, found, published.current batch stage _ current found⟩

theorem failed (published : Published environment config services state) {next : System}
    (stepped : state.system.failSubmission = some next) :
    Published environment config services { state with system := next } := by
  have pointer : Label.failSubmission.passesPointer = true → state.hasPointer = true := by
    intro passes
    cases passes
  exact published.batcher pointer stepped

/-- More objects are stored. -/
theorem store (published : Published environment config services state) {after : Objects}
    (holds : after.Holds (Uploaded environment config services))
    (keeps : state.objects.Keeps after) :
    Published environment config services { state with objects := after } where
  attested := published.attested
  uploadable := published.uploadable
  current_lt := published.current_lt
  fresh := published.fresh
  holds := holds
  current batch stage pointer current found :=
    (published.current batch stage pointer current found).keep keeps
  sent := published.sent
  transactions transaction member := by
    obtain ⟨pointer, found, locates⟩ := published.transactions transaction member
    exact ⟨pointer, found, locates.keep keeps⟩

/-- The batch in flight gets its pointer. -/
theorem point (published : Published environment config services state) {batch : InFlight}
    {stage : Stage} {pointer : String}
    (current : state.system.shared.batch = some (batch, stage))
    (without : state.batchDataPointers batch.number = none)
    (locates : Locates services state.objects (fileName batch.call.batchMerkleRoot) pointer) :
    Published environment config services { state with
      batchDataPointers :=
        Function.update state.batchDataPointers batch.number (some pointer) } where
  attested := published.attested
  uploadable := published.uploadable
  current_lt := published.current_lt
  fresh number above := by
    have other : number ≠ batch.number := by
      rintro rfl
      exact Nat.not_le_of_lt (published.current_lt batch stage current) above
    dsimp only
    rw [Function.update_of_ne other]
    exact published.fresh number above
  holds := published.holds
  current inFlight other batchDataPointer isCurrent found := by
    dsimp only at isCurrent found
    rw [current, Option.some.injEq, Prod.mk.injEq] at isCurrent
    obtain ⟨rfl, -⟩ := isCurrent
    rw [Function.update_self, Option.some.injEq] at found
    exact found ▸ locates
  sent := published.sent
  transactions transaction member := by
    obtain ⟨earlier, found, located⟩ := published.transactions transaction member
    have other : transaction.batchNumber ≠ batch.number := by
      intro same
      rw [same, without] at found
      cases found
    refine ⟨earlier, ?_, located⟩
    dsimp only
    rw [Function.update_of_ne other]
    exact found

theorem upload (published : Published environment config services state) {next : Publishing}
    {primary secondary : Nat → PutObject}
    (stepped : state.upload services primary secondary = some next) :
    Published environment config services next := by
  rw [Publishing.upload] at stepped
  split at stepped
  · rename_i batch current
    split at stepped
    · cases stepped
    · rename_i without
      obtain ⟨received, attested⟩ := published.attested
      have stored : ∀ endpoint ∈ services.endpoints, Uploaded environment config services
          (objectUrl endpoint (fileName batch.call.batchMerkleRoot))
          (batchBytes batch.entries) := by
        intro endpoint member
        rw [(attested.batch batch _ current).batchMerkleRoot]
        exact ⟨batch.entries, published.uploadable batch _ current, rfl, endpoint, member, rfl⟩
      split at stepped
      · rename_i pointer after uploaded
        obtain ⟨holds, keeps, locates⟩ :=
          uploadBatchToMultipleS3_spec primary secondary published.holds stored uploaded
        cases stepped
        apply (published.store holds keeps).point current
        · rw [Publishing.hasPointer, current] at without
          exact Option.not_isSome_iff_eq_none.mp without
        · exact locates pointer rfl
      · rename_i error after uploaded
        obtain ⟨holds, keeps, -⟩ :=
          uploadBatchToMultipleS3_spec primary secondary published.holds stored uploaded
        obtain ⟨system, failed, rfl⟩ := Option.map_eq_some_iff.mp stepped
        exact (published.store holds keeps).failed failed
  · cases stepped

theorem step (published : Published environment config services state)
    {label : Publishing.Label} {next : Publishing}
    (stepped : (Publishing.machine environment config services).step state label = some next) :
    Published environment config services next := by
  cases label with
  | batcher label =>
      change (if label.passesPointer && !state.hasPointer then none else _) = some next at stepped
      split at stepped
      · cases stepped
      · rename_i allowed
        obtain ⟨system, moved, rfl⟩ := Option.map_eq_some_iff.mp stepped
        apply published.batcher _ moved
        intro passes
        simpa [passes] using allowed
  | upload primary secondary => exact published.upload stepped

theorem initial {chain : Chain} (fresh : chain.Fresh)
    (disabledVerifiers lastUploadedBatchBlock : Nat) :
    Published environment config services (.initial
      (initialSystem config chain disabledVerifiers lastUploadedBatchBlock)) := by
  have attested := @allAttested_initial environment config chain fresh disabledVerifiers
    lastUploadedBatchBlock
  have idle : (initialSystem config chain disabledVerifiers
      lastUploadedBatchBlock).shared.batch = none := by
    obtain ⟨userStates, cells, nextRef, equation⟩ := Shared.initial_eq config chain
    rw [initialSystem, equation]
    rfl
  have unsent : (initialSystem config chain disabledVerifiers
      lastUploadedBatchBlock).shared.chain.transactions = [] := by
    obtain ⟨userStates, cells, nextRef, equation⟩ := Shared.initial_eq config chain
    simp only [initialSystem, equation, Shared.empty, Chain.transactions, fresh.pending,
      fresh.included, List.map_nil, List.append_nil]
  refine ⟨⟨[], attested⟩, ?_, ?_, fun _ _ => rfl, ?_, ?_, ?_, ?_⟩
  · intro batch stage current
    rw [Publishing.initial, idle] at current
    cases current
  · intro batch stage current
    rw [Publishing.initial, idle] at current
    cases current
  · intro url bytes found
    cases found
  · intro batch stage pointer _ found
    cases found
  · intro transaction member
    rw [Publishing.initial, unsent] at member
    cases member
  · intro transaction member
    rw [Publishing.initial, unsent] at member
    cases member

end Published

end AlignedLayer
