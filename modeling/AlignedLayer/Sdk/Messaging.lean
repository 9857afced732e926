import AlignedLayer.Sdk.BatchInclusion
import AlignedLayer.Sdk.Messages
import Mathlib.Data.List.Forall2

/-!
# The messages of a client

`send_messages` gives the proofs of one submission consecutive nonces, and
`receive` reads the answers until the last nonce is answered.  CBOR, the
wallet and the Merkle tree crate are parameters.
-/

namespace AlignedLayer.Sdk

/-! ## Data -/

inductive ProofInvalidReason where
  | rejectedProof
  | verifierNotSupported
  | disabledVerifier (system : ProvingSystemId)
  deriving DecidableEq

/-- The answers of the batcher, as they are on the wire. -/
inductive SubmitProofResponseMessage where
  | batchInclusionData (data : BatchInclusionData)
  | protocolVersion (version : Nat)
  | createNewTaskError (merkleRoot error : String)
  | invalidProof (reason : ProofInvalidReason)
  | batchReset
  | error (text : String)
  | invalidNonce
  | invalidSignature
  | proofTooLarge
  | invalidMaxFee
  | insufficientBalance (address : Address)
  | invalidChainId
  | invalidReplacementMessage
  | addToBatchError
  | ethRpcError
  | invalidPaymentServiceAddress (received expected : Address)
  | underpricedProof
  | serverBusy
  | userFundsUnlocked
  | proofReplaced
  deriving DecidableEq

inductive ClientMessage where
  | getNonceForAddress (address : Address)
  | submitProof (message : SubmitProofMessage)
  | getLastMaxFee (address : Address)
  deriving DecidableEq

structure CloseFrame where
  code : Nat
  reason : String
  deriving DecidableEq

/-- The errors of a submission that sending and receiving lead to. -/
inductive SubmitError where
  | webSocketConnectionError (text : String)
  | webSocketClosedUnexpectedlyError (frame : CloseFrame)
  | serializationError
  | ethereumProviderError (text : String)
  | unexpectedBatcherResponse (text : String)
  | invalidNonce
  | invalidMaxFee
  | proofQueueFlushed
  | invalidSignature
  | invalidChainId
  | invalidProof (reason : ProofInvalidReason)
  | proofTooLarge
  | invalidReplacementMessage
  | insufficientBalance (address : Address)
  | invalidPaymentServiceAddress (received expected : Address)
  | batchSubmissionFailed (text : String)
  | addToBatchError
  | invalidProofInclusionData
  | genericError (text : String)
  | userFundsUnlocked
  | proofReplaced
  deriving DecidableEq

structure AlignedVerificationData where
  verificationDataCommitment : VerificationDataCommitment
  batchMerkleRoot : Bytes32
  batchInclusionProof : List Bytes32
  indexInBatch : Nat
  deriving DecidableEq

def AlignedVerificationData.new (verificationDataCommitment : VerificationDataCommitment)
    (inclusionData : BatchInclusionData) : AlignedVerificationData :=
  { verificationDataCommitment := verificationDataCommitment
    batchMerkleRoot := inclusionData.batchMerkleRoot
    batchInclusionProof := inclusionData.batchInclusionProof
    indexInBatch := inclusionData.indexInBatch }

/-- `cbor_serialize` and `cbor_deserialize` at the types of the two sides;
`Payload` is what the websocket carries.  The error is a unit type. -/
structure CborCrate (Payload : Type) where
  serializeRequest : ClientMessage → Option Payload
  serializeResponse : SubmitProofResponseMessage → Option Payload
  deserializeResponse : Payload → Option SubmitProofResponseMessage

/-- Serializing into memory succeeds, and what was serialized is read back. -/
structure CborCrate.Documented {Payload : Type} (cbor : CborCrate Payload) : Prop where
  request : ∀ message, (cbor.serializeRequest message).isSome = true
  response : ∀ message, ∃ payload, cbor.serializeResponse message = some payload ∧
    cbor.deserializeResponse payload = some message

/-- A wallet knows its chain and signs what it is given. -/
structure Wallet where
  chainId : Nat
  sign : NoncedVerificationData → Signature

/-- Responses are filtered to only admit binary or close messages. -/
inductive Message (Payload : Type) where
  | binary (payload : Payload)
  | close (frame : Option CloseFrame)

/-- What the stream of responses yields next. -/
inductive StreamItem (Payload : Type) where
  | message (message : Message Payload)
  | error
  | ended

/-- Where `receive` stands after a part of the stream: it has returned, or it
waits for more. -/
structure Reception (Payload : Type) where
  alignedSubmittedData : List (Except SubmitError AlignedVerificationData)
  returned : Bool
  unread : List (StreamItem Payload)

section Sending

variable {Payload : Type} (cbor : CborCrate Payload) (sendError : Nat → Option String)
  (paymentServiceAddr : Address) (maxFee : Nat) (wallet : Wallet)

/-- The loop of `send_messages`: the messages that went out, what is stored,
and whether all proofs were sent.  `sendError` is the outcome of each send. -/
def sendLoop : Nat → Nat → List VerificationData →
    List SubmitProofMessage × List (Except SubmitError NoncedVerificationData) × Bool
  | _, _, [] => ([], [], true)
  | idx, nonce, verificationData :: rest =>
      let nonced : NoncedVerificationData :=
        ⟨verificationData, nonce, maxFee, wallet.chainId, paymentServiceAddr⟩
      let message : SubmitProofMessage := ⟨nonced, wallet.sign nonced⟩
      match cbor.serializeRequest (.submitProof message) with
      | none => ([], [.error .serializationError], false)
      | some _ =>
          match sendError idx with
          | some text => ([], [.error (.webSocketConnectionError text)], false)
          | none =>
              let (messages, stored, finished) := sendLoop (idx + 1) (nonce + 1) rest
              (message :: messages, .ok nonced :: stored, finished)

/-- The messages sent, and the vector that is returned: in reverse if all
proofs were sent, so that removing from the end is cheaper. -/
def sendMessages (nonce : Nat) (verificationData : List VerificationData) :
    List SubmitProofMessage × List (Except SubmitError NoncedVerificationData) :=
  let (messages, stored, finished) :=
    sendLoop cbor sendError paymentServiceAddr maxFee wallet 0 nonce verificationData
  (messages, if finished then stored.reverse else stored)

/-- The data of the proofs, with consecutive nonces. -/
def noncedData (nonce : Nat) (verificationData : List VerificationData) :
    List NoncedVerificationData :=
  verificationData.mapIdx fun index data =>
    ⟨data, nonce + index, maxFee, wallet.chainId, paymentServiceAddr⟩

/-- `SubmitProofMessage::new`. -/
def Wallet.message (data : NoncedVerificationData) : SubmitProofMessage :=
  ⟨data, wallet.sign data⟩

end Sending

section Receiving

variable {Payload : Type} (keccak : Bytes → Bytes32)
  (crate : MerkleTreeCrate VerificationDataCommitment Bytes32) (cbor : CborCrate Payload)

def handleBatcherResponse (payload : Payload) : Except SubmitError BatchInclusionData :=
  match cbor.deserializeResponse payload with
  | some (.batchInclusionData data) => .ok data
  | some .invalidNonce => .error .invalidNonce
  | some .invalidSignature => .error .invalidSignature
  | some .proofTooLarge => .error .proofTooLarge
  | some .invalidMaxFee => .error .invalidMaxFee
  | some (.insufficientBalance address) => .error (.insufficientBalance address)
  | some .invalidChainId => .error .invalidChainId
  | some .invalidReplacementMessage => .error .invalidReplacementMessage
  | some .addToBatchError => .error .addToBatchError
  | some .ethRpcError => .error (.ethereumProviderError
      "Batcher experienced Eth RPC connection error. Funds have not been spent.")
  | some (.invalidPaymentServiceAddress received expected) =>
      .error (.invalidPaymentServiceAddress received expected)
  | some (.invalidProof reason) => .error (.invalidProof reason)
  | some (.createNewTaskError merkleRoot error) => .error (.batchSubmissionFailed
      ("Could not create task with merkle root " ++ merkleRoot ++ ", failed with error: "
        ++ error))
  | some (.protocolVersion _) => .error (.unexpectedBatcherResponse
      ("Batcher responded with protocol version instead of batch inclusion data. "
        ++ "Funds have not been spent."))
  | some .batchReset => .error .proofQueueFlushed
  | some (.error text) => .error (.genericError text)
  | some .underpricedProof => .error .invalidMaxFee
  | some .serverBusy => .error (.genericError
      "Server is busy processing requests, please retry")
  | some .userFundsUnlocked => .error .userFundsUnlocked
  | some .proofReplaced => .error .proofReplaced
  | none => .error .serializationError

/-- The commitment of the last stored data with the nonce, and the vector
without these data. -/
def matchBatcherResponseWithStoredVerificationData (batchInclusionData : BatchInclusionData)
    (sent : List (Except SubmitError NoncedVerificationData)) :
    Except SubmitError
      (VerificationDataCommitment × List (Except SubmitError NoncedVerificationData)) :=
  let found := sent.zipIdx.reverse.findSome? fun (stored, index) =>
    match stored with
    | .ok data => if data.nonce = batchInclusionData.userNonce then some (data, index) else none
    | .error _ => none
  match found with
  | some (data, index) =>
      .ok (.ofVerificationData keccak data.verificationData, sent.eraseIdx index)
  | none => .error .invalidProofInclusionData

def processBatcherResponse (batchInclusionData : BatchInclusionData)
    (verificationDataCommitment : VerificationDataCommitment) :
    Except SubmitError AlignedVerificationData :=
  if verifyProofInclusion crate verificationDataCommitment batchInclusionData then
    .ok (.new verificationDataCommitment batchInclusionData)
  else
    .error .invalidProofInclusionData

/-- The body of the loop of `get_biggest_nonce`. -/
def biggerNonce (biggestNonce : Nat) (stored : Except SubmitError NoncedVerificationData) : Nat :=
  match stored with
  | .ok data => if data.nonce > biggestNonce then data.nonce else biggestNonce
  | .error _ => biggestNonce

def getBiggestNonce (sent : List (Except SubmitError NoncedVerificationData)) : Nat :=
  sent.foldl biggerNonce 0

/-- The loop of `receive`. -/
def receiveLoop (lastProofNonce : Nat) : List (StreamItem Payload) →
    List (Except SubmitError NoncedVerificationData) →
    List (Except SubmitError AlignedVerificationData) → Reception Payload
  | [], _, aligned => ⟨aligned, false, []⟩
  | .message (.close (some frame)) :: unread, _, aligned =>
      ⟨aligned ++ [.error (.webSocketClosedUnexpectedlyError frame)], true, unread⟩
  | .message (.close none) :: unread, _, aligned =>
      ⟨aligned ++ [.error (.genericError
        "Connection was closed before receive() processed all sent messages ")], true, unread⟩
  | .message (.binary payload) :: unread, sent, aligned =>
      match handleBatcherResponse cbor payload with
      | .error error => ⟨aligned ++ [.error error], true, unread⟩
      | .ok data =>
          match matchBatcherResponseWithStoredVerificationData keccak data sent with
          | .error error => ⟨aligned ++ [.error error], true, unread⟩
          | .ok (related, sent) =>
              match processBatcherResponse crate data related with
              | .error error => ⟨aligned ++ [.error error], true, unread⟩
              | .ok verified =>
                  if data.userNonce = lastProofNonce then
                    ⟨aligned ++ [.ok verified], true, unread⟩
                  else
                    receiveLoop lastProofNonce unread sent (aligned ++ [.ok verified])
  | .error :: unread, _, aligned => ⟨aligned, true, unread⟩
  | .ended :: unread, _, aligned => ⟨aligned, true, unread⟩

def receive (responseStream : List (StreamItem Payload))
    (sent : List (Except SubmitError NoncedVerificationData)) : Reception Payload :=
  receiveLoop keccak crate cbor (getBiggestNonce sent) responseStream sent []

end Receiving

/-! ## What was sent -/

section Sent

variable {Payload : Type} {cbor : CborCrate Payload} {sendError : Nat → Option String}
  {paymentServiceAddr : Address} {maxFee nonce : Nat} {wallet : Wallet}

theorem noncedData_cons (data : VerificationData) (rest : List VerificationData) :
    noncedData paymentServiceAddr maxFee wallet nonce (data :: rest) =
      ⟨data, nonce, maxFee, wallet.chainId, paymentServiceAddr⟩ ::
        noncedData paymentServiceAddr maxFee wallet (nonce + 1) rest := by
  rw [noncedData, noncedData, List.mapIdx_cons, Nat.add_zero]
  congr 1
  apply congrArg (List.mapIdx · rest)
  funext index data
  rw [Nat.add_assoc, Nat.add_comm 1 index]

theorem length_noncedData (verificationData : List VerificationData) :
    (noncedData paymentServiceAddr maxFee wallet nonce verificationData).length =
      verificationData.length :=
  List.length_mapIdx

theorem getElem_noncedData {verificationData : List VerificationData} {index : Nat}
    (bound : index < verificationData.length) :
    (noncedData paymentServiceAddr maxFee wallet nonce verificationData)[index]? =
      some ⟨verificationData[index], nonce + index, maxFee, wallet.chainId,
        paymentServiceAddr⟩ := by
  simp [noncedData, bound]

/-- The nonces ascend from the first one. -/
theorem noncedData_ascends (verificationData : List VerificationData) :
    (noncedData paymentServiceAddr maxFee wallet nonce verificationData).Pairwise
        (fun earlier later => earlier.nonce < later.nonce) ∧
      ∀ data ∈ noncedData paymentServiceAddr maxFee wallet nonce verificationData,
        nonce ≤ data.nonce := by
  induction verificationData generalizing nonce with
  | nil => exact ⟨.nil, by simp [noncedData]⟩
  | cons data rest induction =>
      obtain ⟨ascends, above⟩ := @induction (nonce + 1)
      rw [noncedData_cons]
      constructor
      · apply List.pairwise_cons.mpr
        exact ⟨above, ascends⟩
      · intro other member
        rcases List.mem_cons.mp member with rfl | later
        · exact Nat.le_refl _
        · exact Nat.le_of_succ_le (above other later)

theorem sendLoop_eq (documented : cbor.Documented) (sends : ∀ idx, sendError idx = none)
    (idx : Nat) (verificationData : List VerificationData) :
    sendLoop cbor sendError paymentServiceAddr maxFee wallet idx nonce verificationData =
      ((noncedData paymentServiceAddr maxFee wallet nonce verificationData).map wallet.message,
        (noncedData paymentServiceAddr maxFee wallet nonce verificationData).map .ok, true) := by
  induction verificationData generalizing idx nonce with
  | nil => rfl
  | cons data rest induction =>
      obtain ⟨payload, serialized⟩ := Option.isSome_iff_exists.mp (documented.request
        (.submitProof (wallet.message ⟨data, nonce, maxFee, wallet.chainId, paymentServiceAddr⟩)))
      rw [Wallet.message] at serialized
      rw [sendLoop, noncedData_cons]
      simp only [serialized, sends, induction, List.map_cons, Wallet.message]

/-- When no send fails, every proof goes out, and all are stored in reverse. -/
theorem sendMessages_eq (documented : cbor.Documented) (sends : ∀ idx, sendError idx = none)
    (verificationData : List VerificationData) :
    sendMessages cbor sendError paymentServiceAddr maxFee wallet nonce verificationData =
      ((noncedData paymentServiceAddr maxFee wallet nonce verificationData).map wallet.message,
        ((noncedData paymentServiceAddr maxFee wallet nonce verificationData).map
          .ok).reverse) := by
  rw [sendMessages, sendLoop_eq documented sends]
  rfl

end Sent

/-! ## What is received -/

section Received

variable {Payload : Type} {keccak : Bytes → Bytes32}
  {crate : MerkleTreeCrate VerificationDataCommitment Bytes32} {cbor : CborCrate Payload}
  {sent more : List NoncedVerificationData} {inclusions : List BatchInclusionData}
  {payloads : List Payload} {lastProofNonce : Nat}

/-- The verified data of an answer to a proof. -/
def verifiedData (keccak : Bytes → Bytes32) (data : NoncedVerificationData)
    (inclusion : BatchInclusionData) : Except SubmitError AlignedVerificationData :=
  .ok (.new (.ofVerificationData keccak data.verificationData) inclusion)

/-- The answer has the nonce of the proof, and its path leads from the
commitment of the proof to the root. -/
structure Answers (keccak : Bytes → Bytes32)
    (crate : MerkleTreeCrate VerificationDataCommitment Bytes32) (data : NoncedVerificationData)
    (inclusion : BatchInclusionData) : Prop where
  nonce : inclusion.userNonce = data.nonce
  verified : verifyProofInclusion crate (.ofVerificationData keccak data.verificationData)
    inclusion = true

theorem foldl_biggerNonce {biggestNonce : Nat} {stored : List NoncedVerificationData}
    (below : ∀ data ∈ stored, data.nonce ≤ biggestNonce) :
    (stored.map .ok).foldl biggerNonce biggestNonce = biggestNonce := by
  induction stored with
  | nil => rfl
  | cons data rest induction =>
      have first := below data List.mem_cons_self
      rw [List.map_cons, List.foldl_cons, biggerNonce, if_neg (Nat.not_lt.mpr first)]
      exact induction fun other member => below other (List.mem_cons_of_mem _ member)

/-- The nonce that is waited for is the one of the last proof sent. -/
theorem getBiggestNonce_eq {last : NoncedVerificationData}
    (below : ∀ data ∈ sent, data.nonce < last.nonce) :
    getBiggestNonce (((sent ++ [last]).map .ok).reverse) = last.nonce := by
  have start : biggerNonce 0 (.ok last) = last.nonce := by
    rw [biggerNonce]
    split
    · rfl
    · omega
  rw [getBiggestNonce, List.map_append, List.reverse_append, List.map_singleton,
    List.reverse_singleton, List.singleton_append, List.foldl_cons, start, ← List.map_reverse]
  apply foldl_biggerNonce
  intro data member
  exact Nat.le_of_lt (below data (List.mem_reverse.mp member))

/-- The proof that is stored last is matched first. -/
theorem match_last {inclusion : BatchInclusionData} {data : NoncedVerificationData}
    (stored : List (Except SubmitError NoncedVerificationData))
    (nonce : inclusion.userNonce = data.nonce) :
    matchBatcherResponseWithStoredVerificationData keccak inclusion (stored ++ [.ok data]) =
      .ok (.ofVerificationData keccak data.verificationData, stored) := by
  simp [matchBatcherResponseWithStoredVerificationData, List.zipIdx_append, nonce,
    List.eraseIdx_append_of_length_le]

/-- The payloads carry the answers. -/
def Carries (cbor : CborCrate Payload) (payloads : List Payload)
    (inclusions : List BatchInclusionData) : Prop :=
  List.Forall₂ (fun payload inclusion =>
    cbor.deserializeResponse payload = some (.batchInclusionData inclusion)) payloads inclusions

/-- The payloads as they come out of the stream. -/
def delivered (payloads : List Payload) : List (StreamItem Payload) :=
  payloads.map fun payload => .message (.binary payload)

/-- One answer to the proof that is stored last. -/
theorem receiveLoop_answer {data : NoncedVerificationData} {inclusion : BatchInclusionData}
    {payload : Payload} (answers : Answers keccak crate data inclusion)
    (carried : cbor.deserializeResponse payload = some (.batchInclusionData inclusion))
    (unread : List (StreamItem Payload))
    (stored : List (Except SubmitError NoncedVerificationData))
    (aligned : List (Except SubmitError AlignedVerificationData)) :
    receiveLoop keccak crate cbor lastProofNonce (.message (.binary payload) :: unread)
        (stored ++ [.ok data]) aligned =
      if data.nonce = lastProofNonce then
        ⟨aligned ++ [verifiedData keccak data inclusion], true, unread⟩
      else
        receiveLoop keccak crate cbor lastProofNonce unread stored
          (aligned ++ [verifiedData keccak data inclusion]) := by
  have handled : handleBatcherResponse cbor payload = .ok inclusion := by
    rw [handleBatcherResponse, carried]
  have processed : processBatcherResponse crate inclusion
      (.ofVerificationData keccak data.verificationData) = verifiedData keccak data inclusion := by
    rw [processBatcherResponse, if_pos answers.verified]
    rfl
  rw [receiveLoop, handled]
  dsimp only
  rw [match_last stored answers.nonce]
  dsimp only
  rw [processed, ← answers.nonce]
  rfl

/-- Answers before the last one are read one after another. -/
theorem receiveLoop_answers (answers : List.Forall₂ (Answers keccak crate) sent inclusions)
    (carries : Carries cbor payloads inclusions)
    (before : ∀ data ∈ sent, data.nonce ≠ lastProofNonce) (unread : List (StreamItem Payload))
    (more : List NoncedVerificationData)
    (aligned : List (Except SubmitError AlignedVerificationData)) :
    receiveLoop keccak crate cbor lastProofNonce (delivered payloads ++ unread)
        (((sent ++ more).map .ok).reverse) aligned =
      receiveLoop keccak crate cbor lastProofNonce unread ((more.map .ok).reverse)
        (aligned ++ List.zipWith (verifiedData keccak) sent inclusions) := by
  induction answers generalizing payloads aligned with
  | nil =>
      cases carries
      rw [List.zipWith_nil_left, List.append_nil]
      rfl
  | @cons data inclusion sent inclusions answer rest induction =>
      obtain ⟨payload, payloads, carried, carriesRest, rfl⟩ :=
        List.forall₂_cons_right_iff.mp carries
      rw [List.cons_append, List.map_cons, List.reverse_cons]
      apply (receiveLoop_answer answer carried _ _ _).trans
      rw [if_neg (before data List.mem_cons_self)]
      apply (induction carriesRest (fun other member =>
        before other (List.mem_cons_of_mem _ member)) _).trans
      rw [List.append_assoc, List.zipWith_cons_cons, List.singleton_append]

/-- The answers up to some proof before the last one are read one by one. -/
theorem receive_prefix {last : NoncedVerificationData}
    (ascends : (sent ++ [last]).Pairwise fun earlier later => earlier.nonce < later.nonce)
    (answers : List.Forall₂ (Answers keccak crate) (sent ++ [last]) inclusions)
    (carries : Carries cbor payloads inclusions) {count : Nat} (early : count ≤ sent.length)
    (unread : List (StreamItem Payload)) :
    receive keccak crate cbor (delivered (payloads.take count) ++ unread)
        (((sent ++ [last]).map .ok).reverse) =
      receiveLoop keccak crate cbor last.nonce unread
        ((((sent ++ [last]).drop count).map .ok).reverse)
        ((List.zipWith (verifiedData keccak) (sent ++ [last]) inclusions).take count) := by
  have below : ∀ data ∈ sent, data.nonce < last.nonce := by
    intro data member
    exact (List.pairwise_append.mp ascends).2.2 data member last List.mem_cons_self
  have front := List.forall₂_take count answers
  have before : ∀ data ∈ (sent ++ [last]).take count, data.nonce ≠ last.nonce := by
    intro data member
    rw [List.take_append_of_le_length early] at member
    exact Nat.ne_of_lt (below data (List.mem_of_mem_take member))
  rw [receive, getBiggestNonce_eq below, List.take_zipWith]
  have read := receiveLoop_answers front (List.forall₂_take count carries) before unread
    ((sent ++ [last]).drop count) []
  rw [List.take_append_drop, List.nil_append] at read
  exact read

/-- With an answer to every proof, in the order in which they were sent,
`receive` returns after the last one and leaves what comes later. -/
theorem receive_answers (nonempty : sent ≠ [])
    (ascends : sent.Pairwise fun earlier later => earlier.nonce < later.nonce)
    (answers : List.Forall₂ (Answers keccak crate) sent inclusions)
    (carries : Carries cbor payloads inclusions) (unread : List (StreamItem Payload)) :
    receive keccak crate cbor (delivered payloads ++ unread) ((sent.map .ok).reverse) =
      ⟨List.zipWith (verifiedData keccak) sent inclusions, true, unread⟩ := by
  obtain ⟨before, last, rfl⟩ : ∃ before last, sent = before ++ [last] :=
    ⟨_, _, (List.dropLast_append_getLast nonempty).symm⟩
  have answersLast := List.forall₂_drop before.length answers
  rw [List.drop_left] at answersLast
  obtain ⟨inclusion, none, answer, noneLeft, lastInclusion⟩ :=
    List.forall₂_cons_left_iff.mp answersLast
  rw [List.forall₂_nil_left_iff.mp noneLeft] at lastInclusion
  have carriesLast := List.forall₂_drop before.length carries
  rw [lastInclusion] at carriesLast
  obtain ⟨payload, none, carried, noneLeft, lastPayload⟩ :=
    List.forall₂_cons_right_iff.mp carriesLast
  rw [List.forall₂_nil_right_iff.mp noneLeft] at lastPayload
  have split : delivered payloads ++ unread = delivered (payloads.take before.length) ++
      (.message (.binary payload) :: unread) := by
    conv_lhs => rw [← List.take_append_drop before.length payloads, lastPayload]
    simp [delivered]
  have results : List.zipWith (verifiedData keccak) (before ++ [last]) inclusions =
      (List.zipWith (verifiedData keccak) (before ++ [last]) inclusions).take before.length ++
        [verifiedData keccak last inclusion] := by
    conv_lhs => rw [← List.take_append_drop before.length
      (List.zipWith (verifiedData keccak) (before ++ [last]) inclusions)]
    rw [List.drop_zipWith, List.drop_left, lastInclusion]
    rfl
  rw [split, receive_prefix ascends answers carries (Nat.le_refl _), List.drop_left]
  apply (receiveLoop_answer answer carried unread [] _).trans
  rw [if_pos rfl, ← results]

/-- Before the last answer, `receive` waits for more. -/
theorem receive_waits (nonempty : sent ≠ [])
    (ascends : sent.Pairwise fun earlier later => earlier.nonce < later.nonce)
    (answers : List.Forall₂ (Answers keccak crate) sent inclusions)
    (carries : Carries cbor payloads inclusions) {count : Nat} (early : count < sent.length) :
    receive keccak crate cbor (delivered (payloads.take count)) ((sent.map .ok).reverse) =
      ⟨(List.zipWith (verifiedData keccak) sent inclusions).take count, false, []⟩ := by
  obtain ⟨before, last, rfl⟩ : ∃ before last, sent = before ++ [last] :=
    ⟨_, _, (List.dropLast_append_getLast nonempty).symm⟩
  rw [List.length_append, List.length_singleton] at early
  have read := receive_prefix ascends answers carries (Nat.le_of_lt_succ early) []
  rw [List.append_nil] at read
  exact read

/-- With an answer to every proof of a submission, there is one verified result
for each of them, in the order of the proofs. -/
theorem receive_noncedData {paymentServiceAddr : Address} {maxFee nonce : Nat} {wallet : Wallet}
    {verificationData : List VerificationData} (nonempty : verificationData ≠ [])
    (answers : List.Forall₂ (Answers keccak crate)
      (noncedData paymentServiceAddr maxFee wallet nonce verificationData) inclusions)
    (carries : Carries cbor payloads inclusions) :
    ∃ results : List AlignedVerificationData,
      results.length = verificationData.length ∧
      (∀ index data, verificationData[index]? = some data →
        ∃ inclusion : BatchInclusionData,
          results[index]? = some (.new (.ofVerificationData keccak data) inclusion) ∧
          inclusion.userNonce = nonce + index ∧
          verifyProofInclusion crate (.ofVerificationData keccak data) inclusion = true) ∧
      (∀ unread, receive keccak crate cbor (delivered payloads ++ unread)
        ((noncedData paymentServiceAddr maxFee wallet nonce verificationData).map .ok).reverse =
          ⟨results.map .ok, true, unread⟩) ∧
      ∀ count < verificationData.length, receive keccak crate cbor
        (delivered (payloads.take count))
        ((noncedData paymentServiceAddr maxFee wallet nonce verificationData).map .ok).reverse =
          ⟨(results.take count).map .ok, false, []⟩ := by
  have ascends := (@noncedData_ascends paymentServiceAddr maxFee nonce wallet verificationData).1
  have length := @length_noncedData paymentServiceAddr maxFee nonce wallet verificationData
  have someNonced : noncedData paymentServiceAddr maxFee wallet nonce verificationData ≠ [] := by
    rw [← List.length_pos_iff, length]
    exact List.length_pos_iff.mpr nonempty
  obtain ⟨results, isResults⟩ : ∃ results, results = List.zipWith (fun data inclusion =>
      AlignedVerificationData.new (.ofVerificationData keccak data.verificationData) inclusion)
      (noncedData paymentServiceAddr maxFee wallet nonce verificationData) inclusions :=
    ⟨_, rfl⟩
  have asResults : results.map .ok = List.zipWith (verifiedData keccak)
      (noncedData paymentServiceAddr maxFee wallet nonce verificationData) inclusions := by
    rw [isResults, List.map_zipWith]
    rfl
  refine ⟨results, ?_, ?_, ?_, ?_⟩
  · rw [isResults, List.length_zipWith, ← answers.length_eq, Nat.min_self, length]
  · intro index data found
    obtain ⟨bound, rfl⟩ := List.getElem?_eq_some_iff.mp found
    have nonced := @getElem_noncedData paymentServiceAddr maxFee nonce wallet _ _ bound
    have bounded : index < inclusions.length := by rwa [← answers.length_eq, length]
    obtain ⟨boundNonced, same⟩ := List.getElem?_eq_some_iff.mp nonced
    have answer := answers.get boundNonced bounded
    rw [List.get_eq_getElem, List.get_eq_getElem, same] at answer
    refine ⟨inclusions[index], ?_, answer.nonce, answer.verified⟩
    rw [isResults, List.getElem?_zipWith, nonced, List.getElem?_eq_getElem bounded]
  · intro unread
    rw [asResults]
    exact receive_answers someNonced ascends answers carries unread
  · intro count early
    rw [List.map_take, asResults]
    apply receive_waits someNonced ascends answers carries
    rwa [length]

end Received

end AlignedLayer.Sdk
