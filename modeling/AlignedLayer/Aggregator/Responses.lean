import AlignedLayer.Aggregator.Server
import AlignedLayer.Aggregator.TaskMaps
import AlignedLayer.Contracts.AlignedLayerServiceManager

/-!
# Responses carry what was signed

An index is given to one batch for ever, so a signature that was accepted for
an index belongs to its batch whatever the collector does in the meantime.  At
worst the batch of a response has been collected, and zeros are sent.
-/

namespace AlignedLayer.Aggregator

variable {keccak : Bytes → Bytes32} {aggregator next : Aggregator} {label : Label}

/-! ## The batch of an index -/

/-- A task was opened under the index for a batch with this identifier hash. -/
def OpenedFor (keccak : Bytes → Bytes32) (aggregator : Aggregator) (taskIndex : Nat)
    (identifierHash : Bytes32) : Prop :=
  ∃ batchData : BatchData, (taskIndex, batchData) ∈ aggregator.openedTasks ∧
    identifierHash =
      batchIdentifierHash keccak batchData.batchMerkleRoot batchData.senderAddress

/-- What is stored for an index is the batch it was opened for. -/
structure StoresOpened (keccak : Bytes → Bytes32) (aggregator : Aggregator) : Prop where
  maps : aggregator.MapsAgree
  numbered : aggregator.Numbered
  opened : ∀ index identifierHash batchData,
    aggregator.batchesIdentifierHashByIdx index = some identifierHash →
      aggregator.batchDataByIdentifierHash identifierHash = some batchData →
        (index, batchData) ∈ aggregator.openedTasks ∧
          identifierHash =
            batchIdentifierHash keccak batchData.batchMerkleRoot batchData.senderAddress

theorem storesOpened_new : StoresOpened keccak new where
  maps := mapsAgree_new
  numbered := numbered_new
  opened _ _ _ stored := by cases stored

theorem openedTasks_step (stepped : step keccak aggregator label = some next) :
    aggregator.openedTasks ⊆ next.openedTasks := by
  cases step_cases stepped with
  | adds =>
      rcases addNewTask_cases keccak _ _ _ _ _ aggregator with
        ⟨unchanged, -⟩ | ⟨entered, -, -⟩
      · rw [unchanged]
        exact List.Subset.refl _
      · rw [entered]
        exact List.subset_append_left _ _
  | clears =>
      rw [show Aggregator.openedTasks { aggregator.clearTask _ with collector := _ } =
        (aggregator.clearTask _).openedTasks from rfl, clearTask_openedTasks]
      exact List.Subset.refl _
  | skips => exact List.Subset.refl _
  | moves => exact List.Subset.refl _

theorem OpenedFor.step {taskIndex : Nat} {identifierHash : Bytes32}
    (opened : OpenedFor keccak aggregator taskIndex identifierHash)
    (stepped : Aggregator.step keccak aggregator label = some next) :
    OpenedFor keccak next taskIndex identifierHash := by
  obtain ⟨batchData, member, same⟩ := opened
  exact ⟨batchData, openedTasks_step stepped member, same⟩

namespace StoresOpened

theorem enterTask_opened (stores : StoresOpened keccak aggregator) {batchData : BatchData}
    {taskCreatedBlock now : Nat} {initialized : Bool}
    (newHash : aggregator.batchesIdxByIdentifierHash
      (batchIdentifierHash keccak batchData.batchMerkleRoot batchData.senderAddress) = none)
    {index : Nat} {identifierHash : Bytes32} {found : BatchData}
    (stored : (aggregator.enterTask
      (batchIdentifierHash keccak batchData.batchMerkleRoot batchData.senderAddress) batchData
      taskCreatedBlock now initialized).batchesIdentifierHashByIdx index = some identifierHash)
    (data : (aggregator.enterTask
      (batchIdentifierHash keccak batchData.batchMerkleRoot batchData.senderAddress) batchData
      taskCreatedBlock now initialized).batchDataByIdentifierHash identifierHash = some found) :
    (index, found) ∈ aggregator.openedTasks ++ [(aggregator.nextBatchIndex, batchData)] ∧
      identifierHash = batchIdentifierHash keccak found.batchMerkleRoot found.senderAddress := by
  simp only [enterTask] at stored data
  by_cases isNew : index = aggregator.nextBatchIndex
  · rw [isNew, Function.update_self, Option.some.injEq] at stored
    subst identifierHash
    rw [Function.update_self, Option.some.injEq] at data
    subst found
    rw [isNew]
    exact ⟨List.mem_append_right _ List.mem_cons_self, rfl⟩
  · rw [Function.update_of_ne isNew] at stored
    -- The new hash is stored under no other index.
    have other : identifierHash ≠
        batchIdentifierHash keccak batchData.batchMerkleRoot batchData.senderAddress := by
      intro same
      have known := (stores.maps.inverse identifierHash index).mpr stored
      rw [same, newHash] at known
      cases known
    rw [Function.update_of_ne other] at data
    obtain ⟨member, hashed⟩ := stores.opened index identifierHash found stored data
    exact ⟨List.mem_append_left _ member, hashed⟩

theorem clearTask_opened (stores : StoresOpened keccak aggregator) {i index : Nat}
    {identifierHash : Bytes32} {batchData : BatchData}
    (stored : (aggregator.clearTask i).batchesIdentifierHashByIdx index = some identifierHash)
    (data : (aggregator.clearTask i).batchDataByIdentifierHash identifierHash =
      some batchData) :
    (index, batchData) ∈ aggregator.openedTasks ∧
      identifierHash =
        batchIdentifierHash keccak batchData.batchMerkleRoot batchData.senderAddress := by
  rw [clearTask] at stored data
  split at stored
  case h_1 absent =>
    rw [absent] at data
    exact stores.opened index identifierHash batchData stored data
  case h_2 cleared present =>
    rw [present] at data
    dsimp only at stored data
    have kept : index ≠ i := by
      intro same
      rw [same, Function.update_self] at stored
      cases stored
    rw [Function.update_of_ne kept] at stored
    have other : identifierHash ≠ cleared := by
      intro same
      rw [same, Function.update_self] at data
      cases data
    rw [Function.update_of_ne other] at data
    exact stores.opened index identifierHash batchData stored data

theorem step (stores : StoresOpened keccak aggregator)
    (stepped : Aggregator.step keccak aggregator label = some next) :
    StoresOpened keccak next := by
  refine ⟨stores.maps.step stepped, stores.numbered.step stores.maps stepped, ?_⟩
  intro index identifierHash batchData stored data
  cases step_cases stepped with
  | @adds batchMerkleRoot senderAddress taskCreatedBlock now initialized =>
      rcases addNewTask_cases keccak batchMerkleRoot senderAddress taskCreatedBlock now initialized
        aggregator with ⟨unchanged, -⟩ | ⟨entered, newHash, -⟩
      · rw [unchanged] at stored data ⊢
        exact stores.opened index identifierHash batchData stored data
      · rw [entered] at stored data ⊢
        exact stores.enterTask_opened newHash stored data
  | clears =>
      have opened := stores.clearTask_opened stored data
      simpa using opened
  | skips => exact stores.opened index identifierHash batchData stored data
  | moves => exact stores.opened index identifierHash batchData stored data

theorem openedFor (stores : StoresOpened keccak aggregator) {identifierHash : Bytes32}
    {index : Nat} (known : aggregator.batchesIdxByIdentifierHash identifierHash = some index) :
    OpenedFor keccak aggregator index identifierHash := by
  have stored := (stores.maps.inverse identifierHash index).mp known
  have hasData : (aggregator.batchDataByIdentifierHash identifierHash).isSome := by
    rw [stores.maps.data, known]
    rfl
  obtain ⟨batchData, data⟩ := Option.isSome_iff_exists.mp hasData
  exact ⟨batchData, stores.opened index identifierHash batchData stored data⟩

/-- The index that a new batch gets has not been given before. -/
theorem nextBatchIndex_not_opened {identifierHash : Bytes32}
    {batchData : BatchData} {taskCreatedBlock now : Nat} {initialized : Bool}
    (entered : (aggregator.enterTask identifierHash batchData taskCreatedBlock now
      initialized).Numbered) :
    ∀ found, (aggregator.nextBatchIndex, found) ∉ aggregator.openedTasks := by
  intro found member
  have indices := entered.indices
  simp only [enterTask, List.map_append, List.map_cons, List.map_nil] at indices
  have distinct : (aggregator.openedTasks.map Prod.fst ++ [aggregator.nextBatchIndex]).Nodup := by
    rw [indices]
    exact List.nodup_range
  have earlier : aggregator.nextBatchIndex ∈ aggregator.openedTasks.map Prod.fst :=
    List.mem_map_of_mem (f := Prod.fst) member
  exact (List.nodup_append.mp distinct).2.2 _ earlier _ List.mem_cons_self rfl

/-- An index that was collected is never stored again. -/
theorem collected_step (stores : StoresOpened keccak aggregator)
    (stepped : Aggregator.step keccak aggregator label = some next) {index : Nat}
    {batchData : BatchData} (opened : (index, batchData) ∈ aggregator.openedTasks)
    (absent : aggregator.batchesIdentifierHashByIdx index = none) :
    next.batchesIdentifierHashByIdx index = none := by
  have numbered := stores.numbered.step stores.maps stepped
  cases step_cases stepped with
  | @adds batchMerkleRoot senderAddress taskCreatedBlock now initialized =>
      rcases addNewTask_cases keccak batchMerkleRoot senderAddress taskCreatedBlock now initialized
        aggregator with ⟨unchanged, -⟩ | ⟨entered, -, -⟩
      · rw [unchanged]
        exact absent
      · rw [entered] at numbered ⊢
        have other : index ≠ aggregator.nextBatchIndex := by
          intro same
          rw [same] at opened
          exact nextBatchIndex_not_opened numbered batchData opened
        rw [enterTask]
        dsimp only
        rw [Function.update_of_ne other]
        exact absent
  | @clears _ i =>
      change (aggregator.clearTask i).batchesIdentifierHashByIdx index = none
      rw [clearTask_batchesIdentifierHashByIdx]
      by_cases same : index = i
      · rw [same, Function.update_self]
      · rw [Function.update_of_ne same]
        exact absent
  | skips => exact absent
  | moves => exact absent

end StoresOpened

/-! ## Signatures and responses -/

/-- The values of a batch, under the index it was opened with. -/
def AggregatedResponse.ofBatch (keccak : Bytes → Bytes32) (taskIndex : Nat)
    (batchData : BatchData) (signatures : List TaskSignature) : AggregatedResponse where
  taskIndex := taskIndex
  batchIdentifierHash :=
    Aggregator.batchIdentifierHash keccak batchData.batchMerkleRoot batchData.senderAddress
  batchMerkleRoot := batchData.batchMerkleRoot
  senderAddress := batchData.senderAddress
  signatures := signatures

/-- The zero values of the missing keys. -/
def AggregatedResponse.zero (taskIndex : Nat) (signatures : List TaskSignature) :
    AggregatedResponse where
  taskIndex := taskIndex
  batchIdentifierHash := Bytes32.zero
  batchMerkleRoot := Bytes32.zero
  senderAddress := 0
  signatures := signatures

namespace Server

variable {server later : Server} {label : Label}

/-- An operator sent the signature for this digest. -/
def Signed (server : Server) (signature : TaskSignature) : Prop :=
  ∃ call ∈ server.calls, call.response.batchIdentifierHash = signature.taskResponse ∧
    call.response.operatorId = signature.operatorId ∧
    call.response.blsSignature = some signature.blsSignature

/-- The signatures of a response are for the batch of its index, and so is the
response, unless the batch has been collected. -/
def Matches (keccak : Bytes → Bytes32) (server : Server) (response : AggregatedResponse) : Prop :=
  response.signatures ≠ [] ∧
    ∃ batchData, (response.taskIndex, batchData) ∈ server.aggregator.openedTasks ∧
      (∀ signature ∈ response.signatures, server.Signed signature ∧
        signature.taskIndex = response.taskIndex ∧
        signature.taskResponse = AlignedLayerServiceManager.batchIdentifier keccak
          batchData.batchMerkleRoot batchData.senderAddress) ∧
      (response = .ofBatch keccak response.taskIndex batchData response.signatures ∨
        response = .zero response.taskIndex response.signatures ∧
          server.aggregator.batchesIdentifierHashByIdx response.taskIndex = none)

structure Routed (keccak : Bytes → Bytes32) (server : Server) : Prop where
  stores : StoresOpened keccak server.aggregator
  calls : ∀ call ∈ server.calls, call.response.blsSignature = some call.blsSignature ∧
    ∀ taskIndex, call.taskIndex = some taskIndex →
      OpenedFor keccak server.aggregator taskIndex call.response.batchIdentifierHash
  signatures : ∀ signature ∈ server.signatures, server.Signed signature ∧
    OpenedFor keccak server.aggregator signature.taskIndex signature.taskResponse
  /-- The zero hash belongs to no batch. -/
  sent : (∀ taskIndex, ¬ OpenedFor keccak server.aggregator taskIndex Bytes32.zero) →
    ∀ response ∈ server.sent, server.Matches keccak response

theorem routed_new : Routed keccak new where
  stores := storesOpened_new
  calls _ member := by cases member
  signatures _ member := by cases member
  sent _ _ member := by cases member

/-! ## What a step can do -/

/-- The tasks, the calls and the signatures only grow. -/
structure Extends (keccak : Bytes → Bytes32) (server later : Server) : Prop where
  tasks : later.aggregator = server.aggregator ∨
    ∃ label, Aggregator.step keccak server.aggregator label = some later.aggregator
  calls : ∀ call ∈ server.calls, ∃ other ∈ later.calls, other.response = call.response

theorem Extends.signed (extended : Extends keccak server later) {signature : TaskSignature}
    (signed : server.Signed signature) : later.Signed signature := by
  obtain ⟨call, member, digest, operator, point⟩ := signed
  obtain ⟨other, otherMember, same⟩ := extended.calls call member
  rw [← same] at digest operator point
  exact ⟨other, otherMember, digest, operator, point⟩

theorem Extends.openedFor (extended : Extends keccak server later) {taskIndex : Nat}
    {identifierHash : Bytes32}
    (opened : OpenedFor keccak server.aggregator taskIndex identifierHash) :
    OpenedFor keccak later.aggregator taskIndex identifierHash := by
  rcases extended.tasks with same | ⟨label, stepped⟩
  · rw [same]
    exact opened
  · exact opened.step stepped

theorem Extends.stores (extended : Extends keccak server later)
    (stores : StoresOpened keccak server.aggregator) : StoresOpened keccak later.aggregator := by
  rcases extended.tasks with same | ⟨label, stepped⟩
  · rw [same]
    exact stores
  · exact stores.step stepped

theorem Extends.matches (extended : Extends keccak server later)
    (stores : StoresOpened keccak server.aggregator) {response : AggregatedResponse}
    (matched : server.Matches keccak response) : later.Matches keccak response := by
  obtain ⟨nonempty, batchData, opened, signatures, sent⟩ := matched
  have openedLater : (response.taskIndex, batchData) ∈ later.aggregator.openedTasks := by
    rcases extended.tasks with same | ⟨label, stepped⟩
    · rw [same]
      exact opened
    · exact openedTasks_step stepped opened
  refine ⟨nonempty, batchData, openedLater, ?_, ?_⟩
  · intro signature member
    obtain ⟨signed, index, digest⟩ := signatures signature member
    exact ⟨extended.signed signed, index, digest⟩
  · rcases sent with ofBatch | ⟨zero, collected⟩
    · exact .inl ofBatch
    · right
      refine ⟨zero, ?_⟩
      rcases extended.tasks with same | ⟨label, stepped⟩
      · rw [same]
        exact collected
      · exact stores.collected_step stepped opened collected

theorem extends_set {position : Nat} {call other : Call}
    (found : server.calls[position]? = some call) (same : other.response = call.response)
    {signatures : List TaskSignature} :
    Extends keccak server
      { server with calls := server.calls.set position other, signatures := signatures } := by
  refine ⟨.inl rfl, ?_⟩
  intro kept member
  obtain ⟨index, isKept⟩ := List.mem_iff_getElem?.mp member
  by_cases here : index = position
  · rw [here, found, Option.some.injEq] at isKept
    subst kept
    have bound := (List.getElem?_eq_some_iff.mp found).1
    exact ⟨other, List.mem_set bound other, same⟩
  · refine ⟨kept, ?_, rfl⟩
    apply List.mem_of_getElem? (i := index)
    rw [List.getElem?_set_ne (Ne.symm here)]
    exact isKept

/-- A step that changes one call, and no index of a call to another task. -/
theorem Routed.set (routed : Routed keccak server) {position : Nat} {call other : Call}
    (found : server.calls[position]? = some call) (sameResponse : other.response = call.response)
    (sameSignature : other.blsSignature = call.blsSignature)
    (index : ∀ taskIndex, other.taskIndex = some taskIndex →
      OpenedFor keccak server.aggregator taskIndex other.response.batchIdentifierHash) :
    Routed keccak { server with calls := server.calls.set position other } := by
  have extended : Extends keccak server
      { server with calls := server.calls.set position other } :=
    extends_set found sameResponse
  refine ⟨routed.stores, ?_, ?_, ?_⟩
  · intro changed member
    rcases List.mem_or_eq_of_mem_set member with kept | rfl
    · exact routed.calls changed kept
    · refine ⟨?_, index⟩
      rw [sameResponse, sameSignature]
      exact (routed.calls call (List.mem_of_getElem? found)).1
  · intro signature member
    obtain ⟨signed, opened⟩ := routed.signatures signature member
    exact ⟨extended.signed signed, opened⟩
  · intro nonzero response member
    exact extended.matches routed.stores (routed.sent nonzero response member)

theorem Routed.getTaskIndex (routed : Routed keccak server) {position : Nat} {call : Call}
    (found : server.calls[position]? = some call) :
    Routed keccak
      { server with calls := server.calls.set position (call.getTaskIndex server.aggregator) } := by
  have known := (routed.calls call (List.mem_of_getElem? found)).2
  apply routed.set found
  · rw [Call.getTaskIndex]
    split
    · rfl
    · split <;> rfl
  · rw [Call.getTaskIndex]
    split
    · rfl
    · split <;> rfl
  · intro taskIndex isIndex
    rw [Call.getTaskIndex] at isIndex ⊢
    split at isIndex
    case h_1 index stored =>
      rw [Option.some.injEq] at isIndex
      subst taskIndex
      exact routed.stores.openedFor stored
    case h_2 =>
      split at isIndex
      case isTrue more =>
        rw [if_pos more]
        exact known taskIndex isIndex
      case isFalse last =>
        rw [if_neg last]
        exact known taskIndex isIndex

theorem Routed.processNewSignature (routed : Routed keccak server) {position taskIndex : Nat}
    {call : Call} (found : server.calls[position]? = some call)
    (index : call.taskIndex = some taskIndex) :
    Routed keccak { server with
      calls := server.calls.set position { call with processed := true }
      signatures := server.signatures ++
        [{ taskIndex := taskIndex
           taskResponse := call.response.batchIdentifierHash
           blsSignature := call.blsSignature
           operatorId := call.response.operatorId }] } := by
  obtain ⟨point, known⟩ := routed.calls call (List.mem_of_getElem? found)
  have set : Routed keccak { server with
      calls := server.calls.set position { call with processed := true } } :=
    routed.set found rfl rfl known
  refine ⟨set.stores, set.calls, ?_, set.sent⟩
  intro signature member
  rcases List.mem_append.mp member with earlier | here
  · exact set.signatures signature earlier
  · rw [List.mem_singleton.mp here]
    have bound := (List.getElem?_eq_some_iff.mp found).1
    refine ⟨⟨{ call with processed := true }, List.mem_set bound _, rfl, rfl, point⟩, ?_⟩
    exact known taskIndex index

/-- What is read under the lock, for signatures that belong to the index. -/
theorem Routed.handle (routed : Routed keccak server)
    (nonzero : ∀ taskIndex, ¬ OpenedFor keccak server.aggregator taskIndex Bytes32.zero)
    {response : BlsAggregationServiceResponse}
    (documented : response.fromSignatures server.signatures = true) {sent : AggregatedResponse}
    (member : sent ∈ handleBlsAggServiceResponse response server.aggregator) :
    server.Matches keccak sent := by
  rw [handleBlsAggServiceResponse] at member
  rw [BlsAggregationServiceResponse.fromSignatures] at documented
  cases failed : response.err.isSome with
  | true =>
      rw [failed, if_pos rfl] at member
      cases member
  | false =>
      rw [failed, if_neg (by decide), List.mem_singleton] at member
      rw [failed, Bool.false_or, Bool.and_eq_true, Bool.not_eq_true', List.all_eq_true]
        at documented
      obtain ⟨nonempty, aggregated⟩ := documented
      have received : ∀ signature ∈ response.signatures,
          signature ∈ server.signatures ∧ signature.taskIndex = response.taskIndex ∧
            signature.taskResponse = response.taskResponse := by
        intro signature inResponse
        have here := aggregated signature inResponse
        simp only [Bool.and_eq_true, List.contains_iff_mem, beq_iff_eq] at here
        exact ⟨here.1.1, here.1.2, here.2⟩
      obtain ⟨first, isFirst⟩ := List.exists_mem_of_ne_nil response.signatures (by
        intro empty
        rw [empty] at nonempty
        cases nonempty)
      obtain ⟨firstReceived, firstIndex, firstDigest⟩ := received first isFirst
      obtain ⟨-, batchData, opened, hashed⟩ := routed.signatures first firstReceived
      rw [firstIndex] at opened
      rw [firstDigest] at hashed
      subst sent
      refine ⟨List.ne_nil_of_mem isFirst, batchData, opened, ?_, ?_⟩
      · intro signature inResponse
        obtain ⟨isReceived, index, digest⟩ := received signature inResponse
        exact ⟨(routed.signatures signature isReceived).1, index, digest.trans hashed⟩
      · cases stored : server.aggregator.batchesIdentifierHashByIdx response.taskIndex with
        | some identifierHash =>
            left
            have known := (routed.stores.maps.inverse identifierHash response.taskIndex).mpr stored
            have hasData :
                (server.aggregator.batchDataByIdentifierHash identifierHash).isSome := by
              rw [routed.stores.maps.data, known]
              rfl
            obtain ⟨found, data⟩ := Option.isSome_iff_exists.mp hasData
            obtain ⟨foundOpened, foundHashed⟩ :=
              routed.stores.opened response.taskIndex identifierHash found stored data
            -- The index was given once, so both are the same batch.
            have given : (server.aggregator.openedTasks.map Prod.fst).Nodup := by
              rw [routed.stores.numbered.indices]
              exact List.nodup_range
            have same : found = batchData :=
              congrArg Prod.snd (List.inj_on_of_nodup_map given foundOpened opened rfl)
            subst found
            rw [Option.getD_some, data, Option.getD_some, foundHashed]
            rfl
        | none =>
            right
            refine ⟨?_, rfl⟩
            have noData : server.aggregator.batchDataByIdentifierHash Bytes32.zero = none := by
              cases data : server.aggregator.batchDataByIdentifierHash Bytes32.zero with
              | none => rfl
              | some found =>
                  have known : (server.aggregator.batchesIdxByIdentifierHash
                      Bytes32.zero).isSome := by
                    rw [← routed.stores.maps.data, data]
                    rfl
                  obtain ⟨index, isIndex⟩ := Option.isSome_iff_exists.mp known
                  exact absurd (routed.stores.openedFor isIndex) (nonzero index)
            rw [Option.getD_none, noData, Option.getD_none]
            rfl

theorem Routed.step (routed : Routed keccak server)
    (stepped : Server.step keccak server label = some later) : Routed keccak later := by
  cases label with
  | tasks label =>
      obtain ⟨aggregator, moved, rfl⟩ := Option.map_eq_some_iff.mp stepped
      have extended : Extends keccak server { server with aggregator := aggregator } :=
        ⟨.inr ⟨label, moved⟩, fun call member => ⟨call, member, rfl⟩⟩
      refine ⟨routed.stores.step moved, ?_, ?_, ?_⟩
      · intro call member
        obtain ⟨point, known⟩ := routed.calls call member
        exact ⟨point, fun taskIndex isIndex => (known taskIndex isIndex).step moved⟩
      · intro signature member
        obtain ⟨signed, opened⟩ := routed.signatures signature member
        exact ⟨signed, opened.step moved⟩
      · intro nonzero response member
        apply extended.matches routed.stores
        apply routed.sent _ response member
        intro taskIndex opened
        exact nonzero taskIndex (opened.step moved)
  | signedTaskResponse response =>
      simp only [Server.step] at stepped
      split at stepped
      case h_1 =>
        cases stepped
        exact routed
      case h_2 blsSignature isSignature =>
        cases stepped
        have extended : Extends keccak server
            { server with calls := server.calls ++ [.new response blsSignature] } :=
          ⟨.inl rfl, fun call member => ⟨call, List.mem_append_left _ member, rfl⟩⟩
        refine ⟨routed.stores, ?_, ?_, ?_⟩
        · intro call member
          rcases List.mem_append.mp member with earlier | here
          · exact routed.calls call earlier
          · rw [List.mem_singleton.mp here]
            refine ⟨isSignature, ?_⟩
            intro taskIndex isIndex
            cases isIndex
        · intro signature member
          obtain ⟨signed, opened⟩ := routed.signatures signature member
          exact ⟨extended.signed signed, opened⟩
        · intro nonzero sent member
          exact extended.matches routed.stores (routed.sent nonzero sent member)
  | getTaskIndex position =>
      obtain ⟨call, found, moved⟩ := Option.bind_eq_some_iff.mp stepped
      split at moved
      case isTrue => cases moved
      case isFalse =>
        cases moved
        exact routed.getTaskIndex found
  | processNewSignature position =>
      obtain ⟨call, found, known⟩ := Option.bind_eq_some_iff.mp stepped
      obtain ⟨taskIndex, index, moved⟩ := Option.bind_eq_some_iff.mp known
      split at moved
      case isTrue => cases moved
      case isFalse =>
        cases moved
        exact routed.processNewSignature found index
  | blsResult position accepted =>
      obtain ⟨call, found, moved⟩ := Option.bind_eq_some_iff.mp stepped
      split at moved
      case isTrue =>
        cases moved
        exact routed.set found rfl rfl (routed.calls call (List.mem_of_getElem? found)).2
      case isFalse => cases moved
  | timeout position =>
      obtain ⟨call, found, moved⟩ := Option.bind_eq_some_iff.mp stepped
      split at moved
      case isTrue =>
        cases moved
        exact routed.set found rfl rfl (routed.calls call (List.mem_of_getElem? found)).2
      case isFalse => cases moved
  | blsResponse response =>
      simp only [Server.step] at stepped
      split at stepped
      case isTrue => cases stepped
      case isFalse allowed =>
        cases stepped
        have documented : response.fromSignatures server.signatures = true := by
          by_contra refused
          exact allowed (.inr (.inr refused))
        refine ⟨routed.stores, routed.calls, routed.signatures, ?_⟩
        intro nonzero sent member
        rcases List.mem_append.mp member with earlier | here
        · exact routed.sent nonzero sent earlier
        · exact routed.handle nonzero documented here

namespace EarlySignature

def digest : Bytes32 :=
  batchIdentifierHash Keccak256.keccak256 Bytes32.zero 0

def signature : TaskSignature where
  taskIndex := 0
  taskResponse := digest
  blsSignature := [1]
  operatorId := Bytes32.zero

/-- The signature arrives before the batch does. -/
def earlySignature : List Label :=
  [.signedTaskResponse ⟨digest, Bytes32.zero, 0, some [1], Bytes32.zero⟩, .getTaskIndex 0,
    .tasks (.addNewTask Bytes32.zero 0 1 0 true), .getTaskIndex 0, .processNewSignature 0,
    .blsResult 0 true, .blsResponse ⟨none, 0, digest, [signature]⟩]

end EarlySignature

open EarlySignature

/-- What the goroutine of the call hands to the BLS service. -/
def handed (call : Call) : List TaskSignature :=
  if call.processed then
    call.taskIndex.toList.map fun taskIndex =>
      { taskIndex := taskIndex
        taskResponse := call.response.batchIdentifierHash
        blsSignature := call.blsSignature
        operatorId := call.response.operatorId }
  else
    []

/-- A call is looking for its task, has found it, or has given up after the
last retry. -/
inductive Progress (call : Call) : Prop where
  | lookingUp (notFound : call.taskIndex = none) (fresh : call.processed = false)
      (unanswered : call.reply = none) (retries : call.failures ≤ networkNumRetries)
  | found {taskIndex : Nat} (isFound : call.taskIndex = some taskIndex)
      (retries : call.failures ≤ networkNumRetries)
      (accepted : call.reply = some 0 → call.processed = true)
  | lost (notFound : call.taskIndex = none) (fresh : call.processed = false)
      (refused : call.reply = some 1) (retries : call.failures = networkNumRetries + 1)

structure Accounted (server : Server) : Prop where
  signatures : server.signatures.Perm (server.calls.flatMap handed)
  calls : ∀ call ∈ server.calls, Progress call

theorem flatMap_set {calls : List Call} {position : Nat} {call : Call}
    (found : calls[position]? = some call) (other : Call) :
    (calls.set position other).flatMap handed =
        (calls.take position).flatMap handed ++ handed other ++
          (calls.drop (position + 1)).flatMap handed ∧
      calls.flatMap handed = (calls.take position).flatMap handed ++ handed call ++
        (calls.drop (position + 1)).flatMap handed := by
  obtain ⟨bound, isCall⟩ := List.getElem?_eq_some_iff.mp found
  constructor
  · rw [List.set_eq_take_append_cons_drop, if_pos bound, List.flatMap_append, List.flatMap_cons,
      List.append_assoc]
  · have split : calls = calls.take position ++ call :: calls.drop (position + 1) := by
      rw [← isCall, List.getElem_cons_drop, List.take_append_drop]
    have mapped := congrArg (List.flatMap handed) split
    rw [List.flatMap_append, List.flatMap_cons, ← List.append_assoc] at mapped
    exact mapped

/-- A step that changes one call and hands over nothing. -/
theorem Accounted.set (accounted : server.Accounted) {position : Nat} {call other : Call}
    (found : server.calls[position]? = some call) (same : handed other = handed call)
    (progress : Progress other) :
    Accounted { server with calls := server.calls.set position other } := by
  obtain ⟨after, before⟩ := flatMap_set found other
  constructor
  · rw [after, same, ← before]
    exact accounted.signatures
  · intro changed member
    rcases List.mem_or_eq_of_mem_set member with kept | rfl
    · exact accounted.calls changed kept
    · exact progress

theorem Progress.getTaskIndex {call : Call} (progress : Progress call)
    (looking : ¬ call.taskIndex.isSome) (unanswered : ¬ call.reply.isSome)
    (aggregator : Aggregator) :
    Progress (call.getTaskIndex aggregator) ∧
      handed (call.getTaskIndex aggregator) = handed call := by
  cases progress with
  | lookingUp notFound fresh isOpen retries =>
      rw [Call.getTaskIndex]
      split
      case h_1 taskIndex stored =>
        constructor
        · have isFound : { call with taskIndex := some taskIndex }.taskIndex = some taskIndex := rfl
          apply Progress.found isFound retries
          intro accepted
          rw [show call.reply = some 0 from accepted] at isOpen
          cases isOpen
        · rw [handed, handed, fresh]
          rfl
      case h_2 =>
        split
        case isTrue more =>
          exact ⟨.lookingUp notFound fresh isOpen more, rfl⟩
        case isFalse last =>
          have four : call.failures + 1 = networkNumRetries + 1 := by omega
          exact ⟨.lost notFound fresh rfl four, rfl⟩
  | found isFound =>
      rw [isFound] at looking
      exact absurd rfl looking
  | lost _ _ refused =>
      rw [refused] at unanswered
      exact absurd rfl unanswered

theorem Accounted.step (accounted : server.Accounted) {keccak : Bytes → Bytes32}
    (stepped : Server.step keccak server label = some later) : later.Accounted := by
  cases label with
  | tasks label =>
      obtain ⟨aggregator, -, rfl⟩ := Option.map_eq_some_iff.mp stepped
      obtain ⟨signatures, calls⟩ := accounted
      exact ⟨signatures, calls⟩
  | signedTaskResponse response =>
      simp only [Server.step] at stepped
      split at stepped
      case h_1 =>
        cases stepped
        exact accounted
      case h_2 =>
        cases stepped
        constructor
        · rw [List.flatMap_append]
          simpa [handed, Call.new] using accounted.signatures
        · intro call member
          rcases List.mem_append.mp member with earlier | here
          · exact accounted.calls call earlier
          · rw [List.mem_singleton.mp here]
            exact .lookingUp rfl rfl rfl (Nat.zero_le _)
  | getTaskIndex position =>
      obtain ⟨call, found, moved⟩ := Option.bind_eq_some_iff.mp stepped
      split at moved
      case isTrue => cases moved
      case isFalse allowed =>
        cases moved
        simp only [not_or] at allowed
        obtain ⟨progress, same⟩ := (accounted.calls call (List.mem_of_getElem? found)).getTaskIndex
          allowed.1 allowed.2.1 server.aggregator
        exact accounted.set found same progress
  | processNewSignature position =>
      obtain ⟨call, found, known⟩ := Option.bind_eq_some_iff.mp stepped
      obtain ⟨taskIndex, index, moved⟩ := Option.bind_eq_some_iff.mp known
      split at moved
      case isTrue => cases moved
      case isFalse fresh =>
        cases moved
        obtain ⟨after, before⟩ := flatMap_set found { call with processed := true }
        have nothing : handed call = [] := by rw [handed, if_neg fresh]
        constructor
        · have earlier := accounted.signatures
          rw [before, nothing, List.append_nil] at earlier
          rw [after, handed, if_pos rfl, index, List.append_assoc]
          refine (earlier.append_right _).trans ?_
          rw [List.append_assoc]
          exact List.perm_append_comm.append_left _
        · intro changed member
          rcases List.mem_or_eq_of_mem_set member with kept | rfl
          · exact accounted.calls changed kept
          · cases accounted.calls call (List.mem_of_getElem? found) with
            | lookingUp notFound | lost notFound =>
                rw [index] at notFound
                cases notFound
            | found _ retries => exact .found index retries fun _ => rfl
  | blsResult position accepted =>
      obtain ⟨call, found, moved⟩ := Option.bind_eq_some_iff.mp stepped
      split at moved
      case isTrue allowed =>
        cases moved
        refine accounted.set found ?_ ?_
        · rfl
        cases accounted.calls call (List.mem_of_getElem? found) with
        | lookingUp _ fresh | lost _ fresh =>
            rw [fresh] at allowed
            cases allowed.1
        | found isFound retries => exact .found isFound retries fun _ => allowed.1
      case isFalse => cases moved
  | timeout position =>
      obtain ⟨call, found, moved⟩ := Option.bind_eq_some_iff.mp stepped
      split at moved
      case isTrue allowed =>
        cases moved
        refine accounted.set found ?_ ?_
        · rfl
        cases accounted.calls call (List.mem_of_getElem? found) with
        | lookingUp notFound | lost notFound =>
            rw [notFound] at allowed
            cases allowed.1
        | found isFound retries =>
            refine .found isFound retries ?_
            intro accepted
            cases accepted
      case isFalse => cases moved
  | blsResponse response =>
      simp only [Server.step] at stepped
      split at stepped
      case isTrue => cases stepped
      case isFalse =>
        cases stepped
        obtain ⟨signatures, calls⟩ := accounted
        exact ⟨signatures, calls⟩

end Server

end AlignedLayer.Aggregator
