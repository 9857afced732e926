import AlignedLayer.Batcher.Replacements

/-!
# Replacements that are refused

The old connection is told `ProofReplaced` and shut down before the
replacement is checked against the user's other entries.
-/

namespace AlignedLayer

/-- Everything but the inclusion data tells that a proof is not in a batch. -/
def SubmitProofResponseMessage.isError : SubmitProofResponseMessage → Bool
  | .batchInclusionData _ _ => false
  | _ => true

/-- The connections that were shut down after `ProofReplaced`. -/
def Shared.closedSinks (shared : Shared) : List WsMessageSink :=
  shared.notices.filterMap fun notice =>
    if notice.message = .proofReplaced then notice.proof.messagingSink else none

/-- Nothing queued or cached has changed, nobody was told anything on an old
connection, and the sender was answered with an error. -/
structure System.Undisturbed (system : System) (request : Request) (next : System) :
    Prop where
  queue : next.shared.batchQueue = system.shared.batchQueue
  users : next.shared.userStates = system.shared.userStates
  cells : next.shared.cells = system.shared.cells
  notices : next.shared.notices = system.shared.notices
  connections : next.shared.closedSinks = system.shared.closedSinks
  answered : ∃ message : SubmitProofResponseMessage, message.isError = true ∧
    next.replies = system.replies ++ [(request.wsConnSink, message)]

section

variable {environment : Environment} {config : Config} {system : System} {task : TaskId}
  {verifier : VerifierCall → Bool} {request : Request} {ref : Ref}

variable (environment config system verifier request) in
/-- The queued entry makes the bump overflow, or it has a connection and the
replacement gets as far as the last check and fails it. -/
def System.RefusesTooLate : Prop :=
  ∃ original, system.storedEntry request = some original ∧
    (config.BumpOverflows original ∨
      system.PassesChecks config verifier request original ∧
        original.messagingSink.isSome = true ∧
        BatchState.replacementEntryIsValid system.shared.batchQueue
          (System.replacementEntry environment request original) = false)

theorem System.undisturbed_reject {message : SubmitProofResponseMessage}
    (isError : message.isError = true) :
    system.Undisturbed request (system.reject task request message) :=
  ⟨rfl, rfl, rfl, rfl, rfl, message, isError, rfl⟩

/-- A panic leaves the sender without an answer. -/
theorem System.not_undisturbed_finish : ¬ system.Undisturbed request (system.finish task) := by
  intro undisturbed
  obtain ⟨message, -, answered⟩ := undisturbed.answered
  cases List.self_eq_append_right.mp answered

theorem Shared.notify_of_none {entry : BatchQueueEntry} (shared : Shared)
    (message : SubmitProofResponseMessage) (absent : entry.messagingSink.isSome = false) :
    shared.notify [entry] message = shared := by
  rw [Shared.notify, List.filter_cons_of_neg (by rw [absent]; exact Bool.false_ne_true),
    List.filter_nil, List.map_nil, List.append_nil]

theorem Shared.notices_notify {entry : BatchQueueEntry} (shared : Shared)
    (message : SubmitProofResponseMessage) (present : entry.messagingSink.isSome = true) :
    (shared.notify [entry] message).notices = shared.notices ++ [⟨entry, message⟩] := by
  have selected : ([entry].filter fun entry => entry.messagingSink.isSome) = [entry] :=
    List.filter_cons_of_pos present
  rw [Shared.notify, selected, List.map_cons, List.map_nil]

theorem System.storedEntry_unique {left right : BatchQueueEntry}
    (leftStored : system.storedEntry request = some left)
    (rightStored : system.storedEntry request = some right) : left = right :=
  Option.some.inj (leftStored.symm.trans rightStored)

/-- The exits before the notification leave everything alone, the exit after
it does so only for an entry without a connection. -/
theorem System.ReplaceEnds.undisturbed_iff {next : System}
    (ends : system.ReplaceEnds environment config task verifier request ref next)
    (refused : next.shared.accepted = system.shared.accepted) :
    system.Undisturbed request next ↔
      ¬ system.RefusesTooLate environment config verifier request := by
  cases ends with
  | notQueued missing =>
      refine iff_of_true (undisturbed_reject rfl) ?_
      rintro ⟨original, stored, -⟩
      rw [missing] at stored
      cases stored
  | overflows stored overflow =>
      apply iff_of_false not_undisturbed_finish
      exact not_not_intro ⟨_, stored, .inl overflow⟩
  | underpriced stored inRange low =>
      refine iff_of_true (undisturbed_reject rfl) ?_
      rintro ⟨other, otherStored, overflow | ⟨passed, -⟩⟩
      · exact inRange (storedEntry_unique stored otherStored ▸ overflow)
      · rw [storedEntry_unique stored otherStored] at low
        exact absurd passed.bumped (Nat.not_le.mpr low)
  | refused stored inRange bumped refusal =>
      refine iff_of_true (undisturbed_reject rfl) ?_
      rintro ⟨other, otherStored, overflow | ⟨passed, -⟩⟩
      · exact inRange (storedEntry_unique stored otherStored ▸ overflow)
      · rw [passed.verified] at refusal
        cases refusal
  | @invalid original passed invalid =>
      cases connected : original.messagingSink.isSome with
      | true =>
          apply iff_of_false
          · intro undisturbed
            have told := undisturbed.notices
            rw [reject_shared, withShared_shared, Shared.notices_notify _ _ connected] at told
            cases List.append_right_eq_self.mp told
          · exact not_not_intro ⟨_, passed.stored, .inr ⟨passed, connected, invalid⟩⟩
      | false =>
          apply iff_of_true
          · rw [Shared.notify_of_none _ _ connected]
            exact undisturbed_reject rfl
          · rintro ⟨other, otherStored, overflow | ⟨-, otherConnected, -⟩⟩
            · exact passed.inRange (storedEntry_unique passed.stored otherStored ▸ overflow)
            · rw [← storedEntry_unique passed.stored otherStored, connected] at otherConnected
              cases otherConnected
  | replaced passed valid =>
      cases List.append_right_eq_self.mp refused

/-- Whether the handler replaces or waits in vain for the lock of the queue. -/
theorem refused_replacement_undisturbed_iff {label : Label} {balance : Nat} {next : System}
    (running : system.handlers task = some (request, .replace ref balance))
    (own : label = .replace task verifier ∨ label = .timeout task)
    (stepped : (batcher environment config).step system label = some next)
    (refused : next.shared.accepted = system.shared.accepted) :
    system.Undisturbed request next ↔
      label = .timeout task ∨ ¬ system.RefusesTooLate environment config verifier request := by
  rcases own with rfl | rfl
  · have ends := System.replace_ends running stepped
    rw [ends.undisturbed_iff refused]
    simp only [reduceCtorEq, false_or]
  · simp only [batcher, System.timeout, running, Option.some.injEq] at stepped
    subst stepped
    exact iff_of_true (System.undisturbed_reject rfl) (.inl rfl)

end

/-! ## A connection that is lost -/

namespace Sample

/-- The second proof of user 1 is to pay more than the first. -/
def outbidsItself : List Label :=
  firstProof 0 1 0 1000000 ++ nextProof 1 1 1 500000 ++ findUser 2 1 1 2000000 ++
    [.readBalance 2 true]

/-- What is evaluated of a state in which the handler of task 2 replaces. -/
def refusesTooLate (system : System) : Bool :=
  match system.handlers 2 with
  | some (request, .replace _ _) =>
      (system.storedEntry request).any fun original =>
        (system.replace environment (config 10) 2 fun _ => true).any fun next =>
          decide (next.shared.accepted = system.shared.accepted ∧
            next.storedEntry request = some original ∧
            next.shared.notices = system.shared.notices ++ [⟨original, .proofReplaced⟩] ∧
            next.replies = system.replies ++ [(request.wsConnSink, .invalidReplacementMessage)])
  | _ => false

theorem outbidsItself_refused :
    ∃ (system : System) (request : Request) (ref : Ref) (balance : Nat) (next : System)
      (original : BatchQueueEntry),
      (batcher environment (config 10)).run (Sample.system 10 100000000) outbidsItself =
        some system ∧
      system.handlers 2 = some (request, .replace ref balance) ∧
      (batcher environment (config 10)).step system (.replace 2 fun _ => true) = some next ∧
      next.shared.accepted = system.shared.accepted ∧
      next.storedEntry request = some original ∧
      next.shared.notices = system.shared.notices ++ [⟨original, .proofReplaced⟩] ∧
      next.replies = system.replies ++ [(request.wsConnSink, .invalidReplacementMessage)] := by
  have found : ((batcher environment (config 10)).run (Sample.system 10 100000000)
      outbidsItself).any refusesTooLate = true := by
    decide +kernel
  obtain ⟨system, ran, refuses⟩ := (Option.any_eq_true _ _).mp found
  rw [refusesTooLate] at refuses
  split at refuses
  · next request ref balance running =>
      obtain ⟨original, stored, outcome⟩ := (Option.any_eq_true _ _).mp refuses
      obtain ⟨next, stepped, facts⟩ := (Option.any_eq_true _ _).mp outcome
      obtain ⟨refused, kept, told, answered⟩ := of_decide_eq_true facts
      exact ⟨system, request, ref, balance, next, original, ran, running, stepped, refused, kept,
        told, answered⟩
  · cases refuses

end Sample

/-- The proof stays queued, but its connection has been told that the proof
was replaced. -/
theorem refused_replacement_closes_connection :
    ∃ (system : System) (request : Request) (ref : Ref) (balance : Nat) (next : System)
      (original : BatchQueueEntry),
      (batcher Sample.environment (Sample.config 10)).run (Sample.system 10 100000000)
        Sample.outbidsItself = some system ∧
      system.handlers 2 = some (request, .replace ref balance) ∧
      (batcher Sample.environment (Sample.config 10)).step system (.replace 2 fun _ => true) =
        some next ∧
      next.shared.accepted = system.shared.accepted ∧
      next.storedEntry request = some original ∧
      next.shared.notices = system.shared.notices ++ [⟨original, .proofReplaced⟩] ∧
      ¬ system.Undisturbed request next := by
  obtain ⟨system, request, ref, balance, next, original, ran, running, stepped, refused, kept,
    told, -⟩ := Sample.outbidsItself_refused
  refine ⟨system, request, ref, balance, next, original, ran, running, stepped, refused, kept,
    told, ?_⟩
  intro undisturbed
  have same := undisturbed.notices
  rw [told] at same
  cases List.append_right_eq_self.mp same

theorem refused_replacement_undisturbed_iff_outbid :
    ∃ (system : System) (request : Request) (next : System),
      (batcher Sample.environment (Sample.config 10)).run (Sample.system 10 100000000)
        Sample.outbidsItself = some system ∧
      (system.Undisturbed request next ↔
        Label.replace 2 (fun _ => true) = .timeout 2 ∨
          ¬ system.RefusesTooLate Sample.environment (Sample.config 10) (fun _ => true)
            request) := by
  obtain ⟨system, request, ref, balance, next, original, ran, running, stepped, refused, -⟩ :=
    Sample.outbidsItself_refused
  exact ⟨system, request, next, ran,
    refused_replacement_undisturbed_iff running (.inl rfl) stepped refused⟩

end AlignedLayer
