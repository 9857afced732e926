import AlignedLayer.Contracts.BatcherPaymentService

/-!
# What a created task costs its submitters

A successful `createNewTask` takes `feePerProof` from every submitter once for
each of its occurrences in the list, and raises its nonce by the same number.
-/

namespace AlignedLayer.BatcherPaymentService

/-- The user data after `count` proofs of this user were charged. -/
def UserInfo.charged (user : UserInfo) (feePerProof count : Nat) : UserInfo :=
  { user with
    balance := user.balance - feePerProof * count
    nonce := user.nonce + count }

private theorem decrease_step {feePerProof index : Nat} {proofSubmitter : Address}
    {rest : List Address} {userData after : Address → UserInfo}
    (charged : decreaseUserBalances feePerProof index (proofSubmitter :: rest) userData =
      .ok after) :
    feePerProof ≤ (userData proofSubmitter).balance ∧
      decreaseUserBalances feePerProof (index + 1) rest
        (Function.update userData proofSubmitter
          ((userData proofSubmitter).charged feePerProof 1)) = .ok after := by
  simp only [decreaseUserBalances, bind_eq_ok, revertIf_eq_ok, checkedAdd_eq_ok] at charged
  obtain ⟨-, covered, nonce, ⟨-, rfl⟩, -, -, later⟩ := charged
  refine ⟨Nat.not_lt.mp covered, ?_⟩
  simpa [UserInfo.charged] using later

theorem decreaseUserBalances_ok {feePerProof index : Nat} {proofSubmitters : List Address}
    {userData after : Address → UserInfo}
    (charged : decreaseUserBalances feePerProof index proofSubmitters userData = .ok after)
    (user : Address) :
    feePerProof * proofSubmitters.count user ≤ (userData user).balance ∧
      after user = (userData user).charged feePerProof (proofSubmitters.count user) := by
  induction proofSubmitters generalizing index userData with
  | nil =>
      rw [decreaseUserBalances, Except.ok.injEq] at charged
      subst charged
      simp [UserInfo.charged]
  | cons proofSubmitter rest induction =>
      obtain ⟨covered, later⟩ := decrease_step charged
      obtain ⟨restCovered, restCharged⟩ := induction later
      by_cases same : user = proofSubmitter
      · subst same
        rw [Function.update_self] at restCovered restCharged
        simp only [UserInfo.charged, Nat.mul_one] at restCovered
        rw [List.count_cons_self, Nat.mul_succ]
        refine ⟨by omega, ?_⟩
        rw [restCharged]
        simp only [UserInfo.charged, UserInfo.mk.injEq, true_and, Nat.mul_succ]
        omega
      · rw [Function.update_of_ne same] at restCovered restCharged
        rw [List.count_cons_of_ne (Ne.symm same)]
        exact ⟨restCovered, restCharged⟩

/-- A user with enough balance for all its occurrences is not the one the loop
stops at. -/
theorem decreaseUserBalances_ne_insufficient {feePerProof index : Nat}
    {proofSubmitters : List Address} {userData : Address → UserInfo} {user : Address}
    (enough : feePerProof * proofSubmitters.count user ≤ (userData user).balance)
    (balance required : Nat) :
    decreaseUserBalances feePerProof index proofSubmitters userData ≠
      .error (.submissionInsufficientBalance user balance required) := by
  induction proofSubmitters generalizing index userData with
  | nil => simp [decreaseUserBalances]
  | cons proofSubmitter rest induction =>
      intro failed
      simp only [decreaseUserBalances, bind_eq_error, revertIf_eq_error, reduceCtorEq, and_false,
        false_or] at failed
      rcases failed with ⟨short, same⟩ | ⟨-, -, overflow | ⟨nonce, raised, -, -, later⟩⟩
      · simp only [Revert.submissionInsufficientBalance.injEq] at same
        obtain ⟨rfl, -⟩ := same
        rw [List.count_cons_self, Nat.mul_succ] at enough
        omega
      · cases checkedAdd_error overflow
      · refine induction ?_ later
        by_cases same : user = proofSubmitter
        · subst same
          rw [List.count_cons_self, Nat.mul_succ] at enough
          rw [Function.update_self]
          simp only
          omega
        · rw [List.count_cons_of_ne (Ne.symm same)] at enough
          rw [Function.update_of_ne same]
          exact enough

/-- A user with enough balance for all its proofs is not the one a call reverts
for. -/
theorem createNewTask_ne_insufficient {keccak : Bytes → Bytes32} {blockNumber : Nat}
    {sender : Address} {call : CreateNewTask} {state : State}
    {manager : AlignedLayerServiceManager.State} {user : Address}
    (enough : call.feePerProof * call.proofSubmitters.count user ≤ userBalances state user)
    (balance required : Nat) :
    createNewTask keccak blockNumber sender call state manager ≠
      .error (.submissionInsufficientBalance user balance required) := by
  intro failed
  simp only [createNewTask, bind_eq_error, revertIf_eq_error, reduceCtorEq, and_false,
    false_or, pure, Except.pure, exists_false, or_false] at failed
  obtain ⟨-, -, -, -, -, -, -, -, overflow | ⟨total, -, -, -, stopped | ⟨userData, -, -, -,
    called⟩⟩⟩ := failed
  · cases checkedMul_error overflow
  · exact decreaseUserBalances_ne_insufficient enough _ _ stopped
  · exact AlignedLayerServiceManager.createNewTask_ne_insufficientBalance called

/-- What a successful call did to the users, and the checks it passed. -/
theorem createNewTask_ok {keccak : Bytes → Bytes32} {blockNumber : Nat} {sender : Address}
    {call : CreateNewTask} {state after : State}
    {manager managed : AlignedLayerServiceManager.State}
    (created : createNewTask keccak blockNumber sender call state manager =
      .ok (after, managed)) :
    decreaseUserBalances call.feePerProof 0 call.proofSubmitters state.userData =
        .ok after.userData ∧
      AlignedLayerServiceManager.createNewTask keccak blockNumber
        ⟨state.self, call.feeForAggregator⟩ call.batchMerkleRoot call.respondToTaskFeeLimit
        manager = .ok managed := by
  simp only [createNewTask, bind_eq_ok, revertIf_eq_ok, checkedMul_eq_ok, pure, Except.pure,
    Except.ok.injEq, Prod.mk.injEq] at created
  obtain ⟨-, -, -, -, -, -, -, -, total, ⟨-, rfl⟩, -, -, userData, charged, -, -, other, called,
    -, -, rfl, rfl⟩ := created
  exact ⟨charged, called⟩

end AlignedLayer.BatcherPaymentService
