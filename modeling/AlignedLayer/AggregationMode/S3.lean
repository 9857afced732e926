import AlignedLayer.Library.Except
import AlignedLayer.Library.Retry
import AlignedLayer.Operator.BatchUrls
import AlignedLayer.Sdk.Deserialize

/-!
# The downloads of the aggregation mode

A request is tried again after errors of the transport and of the server, and
not after any other.  The Merkle root is not looked at: what the URL holds is
what the aggregator works on.
-/

namespace AlignedLayer.AggregationMode

inductive GetBatchProofsError where
  | fetchingS3Batch (error : String)
  | deserialization
  | emptyBody (error : String)
  | statusFailed (statusCode : Nat) (reason : String)
  | reqwestClientFailed (error : String)
  deriving DecidableEq

/-- An answer to a GET; the body is an error if it cannot be read. -/
structure Response where
  statusCode : Nat
  canonicalReason : Option String
  bytes : Except String Bytes

/-- What a request comes to. -/
inductive Attempt where
  | clientFailed (error : String)
  | sendFailed (error : String)
  | answered (response : Response)

def retryMaxTimes : Nat := 5

def isSuccess (statusCode : Nat) : Bool :=
  200 ≤ statusCode && statusCode ≤ 299

/-- Timeouts, limits and errors of the server may pass. -/
def statusError (statusCode : Nat) (error : GetBatchProofsError) :
    RetryError GetBatchProofsError :=
  if 400 ≤ statusCode ∧ statusCode ≤ 499 then
    if statusCode = 408 ∨ statusCode = 429 then .transient error else .permanent error
  else if 500 ≤ statusCode ∧ statusCode ≤ 599 then .transient error
  else .permanent error

def getAlignedBatchFromS3Retryable (formats : Formats) :
    Attempt → Except (RetryError GetBatchProofsError) (List VerificationData)
  | .clientFailed error => .error (.permanent (.reqwestClientFailed error))
  | .sendFailed error => .error (.transient (.fetchingS3Batch error))
  | .answered response =>
      if !isSuccess response.statusCode then
        .error (statusError response.statusCode
          (.statusFailed response.statusCode (response.canonicalReason.getD "")))
      else
        match response.bytes with
        | .error error => .error (.transient (.emptyBody error))
        | .ok bytes =>
            match Deserialize.fromReader formats bytes with
            | none => .error (.permanent .deserialization)
            | some data => .ok data

def getAlignedBatchFromS3 (formats : Formats) (attempts : Nat → Attempt) :
    Except GetBatchProofsError (List VerificationData) :=
  (retryFunction (fun attempt (_ : Unit) =>
    (getAlignedBatchFromS3Retryable formats (attempts attempt), ()))
    retryMaxTimes 0 ()).1.mapError RetryError.inner

/-- The loop over the URLs, with the errors so far. -/
def firstBatch (formats : Formats) (attempts : Nat → Nat → Attempt) :
    (position : Nat) → List (String × GetBatchProofsError) → List String →
      Except (List (String × GetBatchProofsError)) (List VerificationData)
  | _, errors, [] => .error errors
  | position, errors, url :: urls =>
      match getAlignedBatchFromS3 formats (attempts position) with
      | .ok data => .ok data
      | .error error => firstBatch formats attempts (position + 1) (errors ++ [(url, error)]) urls

/-- The error lists what its text says about each URL. -/
def getAlignedBatchFromS3WithMultipleUrls (formats : Formats) (isWhitespace : Char → Bool)
    (attempts : Nat → Nat → Attempt) (urls : String) :
    Except (List (String × GetBatchProofsError)) (List VerificationData) :=
  firstBatch formats attempts 0 [] (parseBatchUrls isWhitespace urls)

/-! ## What is downloaded -/

/-- A successful answer of the server has the object for its body, if it can be
read. -/
def Attempt.Serves (object : Option Bytes) : Attempt → Prop
  | .answered response => isSuccess response.statusCode = true →
      ∃ bytes, object = some bytes ∧ ∀ body, response.bytes = .ok body → body = bytes
  | .clientFailed _ | .sendFailed _ => True

/-- The answer is successful, and its body is there. -/
def Attempt.delivers : Attempt → Bool
  | .answered response => isSuccess response.statusCode && response.bytes.isOk
  | .clientFailed _ | .sendFailed _ => false

/-- The request is tried again after this attempt. -/
def Attempt.isRetried : Attempt → Bool
  | .answered response =>
      if isSuccess response.statusCode then !response.bytes.isOk
      else response.statusCode = 408 || response.statusCode = 429 ||
        (500 ≤ response.statusCode && response.statusCode ≤ 599)
  | .sendFailed _ => true
  | .clientFailed _ => false

/-- The servers of the URLs have these objects. -/
def Served (objects : String → Option Bytes) (urls : List String)
    (attempts : Nat → Nat → Attempt) : Prop :=
  ∀ position url, urls[position]? = some url →
    ∀ attempt, (attempts position attempt).Serves (objects url)

/-- One URL delivers before the attempts run out. -/
def DeliveredInTime (urls : List String) (attempts : Nat → Nat → Attempt) : Prop :=
  ∃ position < urls.length, ∃ attempt ≤ retryMaxTimes,
    (∀ earlier < attempt, (attempts position earlier).isRetried = true) ∧
      (attempts position attempt).delivers = true

variable {formats : Formats}

theorem retryable_eq_ok {attempt : Attempt} {object : Option Bytes} {data : List VerificationData}
    (serves : attempt.Serves object)
    (downloaded : getAlignedBatchFromS3Retryable formats attempt = .ok data) :
    ∃ bytes, object = some bytes ∧ Deserialize.fromReader formats bytes = some data := by
  cases attempt with
  | clientFailed error => cases downloaded
  | sendFailed error => cases downloaded
  | answered response =>
      rw [getAlignedBatchFromS3Retryable] at downloaded
      split at downloaded
      · cases downloaded
      · rename_i success
        split at downloaded
        · cases downloaded
        · rename_i body isBody
          split at downloaded
          · cases downloaded
          · rename_i decoded isData
            cases downloaded
            obtain ⟨bytes, isObject, same⟩ := serves (by simpa using success)
            exact ⟨bytes, isObject, same body isBody ▸ isData⟩

/-- Only the data of the object are downloaded. -/
theorem getAlignedBatchFromS3_eq_ok {attempts : Nat → Attempt} {object : Option Bytes}
    {data : List VerificationData} (serves : ∀ attempt, (attempts attempt).Serves object)
    (downloaded : getAlignedBatchFromS3 formats attempts = .ok data) :
    ∃ bytes, object = some bytes ∧ Deserialize.fromReader formats bytes = some data := by
  obtain ⟨-, answered⟩ := @retryFunction_rule _ Unit _
    (fun attempt (_ : Unit) => (getAlignedBatchFromS3Retryable formats (attempts attempt), ()))
    retryMaxTimes 0 () (fun _ => True)
    (fun answer => ∀ data, answer.1 = .ok data →
      ∃ bytes, object = some bytes ∧ Deserialize.fromReader formats bytes = some data)
    (fun attempt _ _ => ⟨trivial, fun data isData => retryable_eq_ok (serves attempt) isData⟩)
    trivial
  exact answered data (mapError_eq_ok.mp downloaded)

theorem firstBatch_eq_ok {attempts : Nat → Nat → Attempt} {objects : String → Option Bytes}
    {data : List VerificationData} {position : Nat}
    {errors : List (String × GetBatchProofsError)} {urls : List String}
    (serves : ∀ index url, urls[index]? = some url →
      ∀ attempt, (attempts (position + index) attempt).Serves (objects url))
    (downloaded : firstBatch formats attempts position errors urls = .ok data) :
    ∃ url ∈ urls, ∃ bytes, objects url = some bytes ∧
      Deserialize.fromReader formats bytes = some data := by
  induction urls generalizing position errors with
  | nil => cases downloaded
  | cons url urls induction =>
      rw [firstBatch] at downloaded
      split at downloaded
      · rename_i found answer
        cases downloaded
        exact ⟨url, List.mem_cons_self, getAlignedBatchFromS3_eq_ok (serves 0 url rfl) answer⟩
      · have rest : ∀ index other, urls[index]? = some other →
            ∀ attempt, (attempts (position + 1 + index) attempt).Serves (objects other) := by
          intro index other isUrl
          rw [Nat.succ_add_eq_add_succ]
          exact serves (index + 1) other isUrl
        obtain ⟨other, member, found⟩ := induction rest downloaded
        exact ⟨other, List.mem_cons_of_mem _ member, found⟩

theorem not_permanent_of_isRetried {attempt : Attempt} (retried : attempt.isRetried = true)
    (error : GetBatchProofsError) :
    getAlignedBatchFromS3Retryable formats attempt ≠ .error (.permanent error) := by
  cases attempt with
  | clientFailed error => cases retried
  | sendFailed error =>
      intro permanent
      cases permanent
  | answered response =>
      rw [Attempt.isRetried] at retried
      rw [getAlignedBatchFromS3Retryable]
      split at retried
      · rename_i success
        rw [success, if_neg (by decide)]
        cases bytes : response.bytes with
        | error text =>
            intro permanent
            cases permanent
        | ok body =>
            rw [bytes] at retried
            cases retried
      · rename_i failed
        rw [if_pos (by simpa using failed), statusError]
        have retry : response.statusCode = 408 ∨ response.statusCode = 429 ∨
            (500 ≤ response.statusCode ∧ response.statusCode ≤ 599) := by
          simpa [or_assoc] using retried
        intro permanent
        split_ifs at permanent
        · cases permanent
        · omega
        · cases permanent
        · omega

/-- The data of an object are downloaded, if it is delivered in time. -/
theorem getAlignedBatchFromS3_of_delivers {attempts : Nat → Attempt} {object : Bytes}
    {data : List VerificationData} {index : Nat}
    (serves : ∀ attempt, (attempts attempt).Serves (some object))
    (decodes : Deserialize.fromReader formats object = some data)
    (within : index ≤ retryMaxTimes)
    (retried : ∀ earlier < index, (attempts earlier).isRetried = true)
    (delivers : (attempts index).delivers = true) :
    getAlignedBatchFromS3 formats attempts = .ok data := by
  have succeeds : getAlignedBatchFromS3Retryable formats (attempts index) = .ok data := by
    cases isAnswer : attempts index with
    | clientFailed error =>
        rw [isAnswer] at delivers
        cases delivers
    | sendFailed error =>
        rw [isAnswer] at delivers
        cases delivers
    | answered response =>
        have served := serves index
        rw [isAnswer] at delivers served
        rw [Attempt.delivers, Bool.and_eq_true] at delivers
        obtain ⟨bytes, isObject, same⟩ := served delivers.1
        cases isObject
        rw [getAlignedBatchFromS3Retryable, delivers.1, if_neg (by decide)]
        cases body : response.bytes with
        | error text =>
            rw [body] at delivers
            cases delivers.2
        | ok content =>
            dsimp only
            rw [same content body, decodes]
  obtain ⟨found, answered⟩ := @retryFunction_succeeds _ Unit _
    (fun attempt (_ : Unit) => (getAlignedBatchFromS3Retryable formats (attempts attempt), ()))
    retryMaxTimes 0 () index within
    (fun earlier before _ error => by
      rw [Nat.zero_add]
      exact not_permanent_of_isRetried (retried earlier before) error)
    (fun _ => ⟨data, by rw [Nat.zero_add]; exact succeeds⟩)
  have downloaded : getAlignedBatchFromS3 formats attempts = .ok found :=
    mapError_eq_ok.mpr answered
  obtain ⟨bytes, isObject, isFound⟩ := getAlignedBatchFromS3_eq_ok serves downloaded
  cases isObject
  rw [decodes, Option.some.injEq] at isFound
  rw [downloaded, isFound]

theorem firstBatch_succeeds {attempts : Nat → Nat → Attempt} {position index : Nat}
    {errors : List (String × GetBatchProofsError)} {urls : List String}
    {found : List VerificationData} (inRange : index < urls.length)
    (downloaded : getAlignedBatchFromS3 formats (attempts (position + index)) = .ok found) :
    ∃ data, firstBatch formats attempts position errors urls = .ok data := by
  induction urls generalizing position index errors with
  | nil => exact absurd inRange (Nat.not_lt_zero _)
  | cons url urls induction =>
      rw [firstBatch]
      split
      · exact ⟨_, rfl⟩
      · rename_i error failed
        cases index with
        | zero =>
            rw [Nat.add_zero, failed] at downloaded
            cases downloaded
        | succ index =>
            apply @induction (position + 1) index _ (Nat.lt_of_succ_lt_succ inRange)
            rw [Nat.succ_add_eq_add_succ]
            exact downloaded

section Batches

variable {isWhitespace : Char → Bool} {requests : Nat → Nat → Attempt}
  {objects : String → Option Bytes} {urls : String}

/-- A batch is read from the object of one of the URLs. -/
theorem batch_from_object {data : List VerificationData}
    (served : Served objects (parseBatchUrls isWhitespace urls) requests)
    (read : getAlignedBatchFromS3WithMultipleUrls formats isWhitespace requests urls = .ok data) :
    ∃ url ∈ parseBatchUrls isWhitespace urls, ∃ bytes, objects url = some bytes ∧
      Deserialize.fromReader formats bytes = some data := by
  apply firstBatch_eq_ok _ read
  intro index url isUrl
  rw [Nat.zero_add]
  exact served index url isUrl

/-- A batch is read, if one URL delivers an object that is a batch. -/
theorem batch_of_deliveredInTime
    (served : Served objects (parseBatchUrls isWhitespace urls) requests)
    (delivered : DeliveredInTime (parseBatchUrls isWhitespace urls) requests)
    (batches : ∀ url ∈ parseBatchUrls isWhitespace urls, ∃ bytes data,
      objects url = some bytes ∧ Deserialize.fromReader formats bytes = some data) :
    ∃ data, getAlignedBatchFromS3WithMultipleUrls formats isWhitespace requests urls =
      .ok data := by
  obtain ⟨position, inRange, attempt, within, retried, delivers⟩ := delivered
  have isUrl := List.getElem?_eq_getElem inRange
  obtain ⟨bytes, data, isObject, decodes⟩ := batches _ (List.mem_of_getElem? isUrl)
  have serves := served position _ isUrl
  rw [isObject] at serves
  have downloaded := getAlignedBatchFromS3_of_delivers serves decodes within retried delivers
  apply firstBatch_succeeds inRange
  rw [Nat.zero_add]
  exact downloaded

end Batches

end AlignedLayer.AggregationMode
