import AlignedLayer.Operator.BatchUrls
import AlignedLayer.Operator.ProofWorkers

/-!
# The operator's requests to data services

`getBatchFromDataService` asks again until an answer has status 200, and reads
at most one byte more than the answer announces.  A body that is longer than
announced is refused, and with it every answer that announces no length.
-/

namespace AlignedLayer.Operator

/-- An answer to a GET.  The content length is −1 if it is unknown; the body is
`none` if it cannot be read to its end. -/
structure Response where
  statusCode : Nat
  contentLength : Int
  body : Option Bytes
  closes : Bool

/-- What an attempt comes to. -/
inductive Attempt where
  /-- The context ends during the wait, or there is no request for the URL. -/
  | aborted
  | failed
  | answered (response : Response)

def batchDownloadMaxRetries : Nat := 4

/-- The loop over the attempts, with the last answer so far. -/
def request (attempts : Nat → Attempt) : (left attempt : Nat) → Option Response →
    Option Response
  | 0, _, resp => resp
  | left + 1, attempt, _ =>
      match attempts attempt with
      | .aborted => none
      | .failed => request attempts left (attempt + 1) none
      | .answered resp =>
          if resp.statusCode = 200 then some resp
          else if resp.closes then request attempts left (attempt + 1) (some resp)
          else none

/-- What is read of the last answer. -/
def readBody (maxBatchSize : Int) (resp : Response) : Option Bytes :=
  if resp.statusCode ≠ 200 then
    none
  else if resp.contentLength > maxBatchSize then
    none
  else
    match resp.body with
    | none => none
    | some body => if body.length < resp.contentLength + 1 then some body else none

/-- The `batchBytes` of one URL. -/
def download (maxBatchSize : Int) (attempts : Nat → Attempt) : Option Bytes :=
  (request attempts batchDownloadMaxRetries 0 none).bind (readBody maxBatchSize)

/-- The URLs of a pointer are tried one after the other; the attempts belong to
the position of a URL. -/
def getBatchFromDataServices (formats : Formats) (keccak : Bytes → Bytes32)
    (crate : MerkleTreeCrate VerificationDataCommitment Bytes32) (isWhitespace : Char → Bool)
    (maxBatchSize : Int) (attempts : Nat → Nat → Attempt) (batchURLs : String)
    (expectedMerkleRoot : Bytes32) : Option (List VerificationData) :=
  let urls := parseBatchURLs isWhitespace batchURLs
  getBatchFromDataServiceWithMultipleURLs formats keccak crate
    ((List.range urls.length).map fun position => download maxBatchSize (attempts position))
    expectedMerkleRoot

/-! ## What is downloaded -/

/-- A successful answer of the server has the object for its body, if it can be
read. -/
def Attempt.Serves (object : Option Bytes) : Attempt → Prop
  | .answered resp => resp.statusCode = 200 →
      ∃ bytes, object = some bytes ∧ ∀ body ∈ resp.body, body = bytes
  | .aborted | .failed => True

/-- The attempt ends the loop, with a body of the length it announces. -/
def Attempt.delivers : Attempt → Bool
  | .answered resp =>
      match resp.body with
      | some body => resp.statusCode = 200 && resp.contentLength = body.length
      | none => false
  | .aborted | .failed => false

/-- The loop goes on after the attempt. -/
def Attempt.isRetried : Attempt → Bool
  | .answered resp => resp.statusCode ≠ 200 && resp.closes
  | .failed => true
  | .aborted => false

/-- The servers of the URLs have these objects. -/
def Served (objects : String → Option Bytes) (urls : List String)
    (attempts : Nat → Nat → Attempt) : Prop :=
  ∀ position url, urls[position]? = some url →
    ∀ attempt, (attempts position attempt).Serves (objects url)

/-- One URL delivers before the attempts run out. -/
def DeliveredInTime (urls : List String) (attempts : Nat → Nat → Attempt) : Prop :=
  ∃ position < urls.length, ∃ attempt < batchDownloadMaxRetries,
    (∀ earlier < attempt, (attempts position earlier).isRetried = true) ∧
      (attempts position attempt).delivers = true

variable {attempts : Nat → Attempt} {maxBatchSize : Int}

/-- The loop returns an answer that it got, or the one it began with. -/
theorem mem_of_request {left attempt : Nat} {resp : Option Response} {last : Response}
    (answered : request attempts left attempt resp = some last) :
    resp = some last ∨ ∃ index, attempts index = .answered last := by
  induction left generalizing attempt resp with
  | zero => exact .inl answered
  | succ left induction =>
      right
      rw [request] at answered
      split at answered
      · cases answered
      · rcases induction answered with nothing | found
        · cases nothing
        · exact found
      · rename_i answer isAnswer
        split at answered
        · cases answered
          exact ⟨attempt, isAnswer⟩
        · split at answered
          · rcases induction answered with same | found
            · cases same
              exact ⟨attempt, isAnswer⟩
            · exact found
          · cases answered

theorem readBody_eq_some {resp : Response} {bytes : Bytes}
    (read : readBody maxBatchSize resp = some bytes) :
    resp.statusCode = 200 ∧ resp.body = some bytes := by
  rw [readBody] at read
  split at read
  · cases read
  · rename_i status
    split at read
    · cases read
    · split at read
      · cases read
      · rename_i body isBody
        split at read
        · cases read
          exact ⟨not_not.mp status, isBody⟩
        · cases read

/-- Only the object itself is downloaded. -/
theorem download_eq_some {object : Option Bytes} {bytes : Bytes}
    (serves : ∀ attempt, (attempts attempt).Serves object)
    (downloaded : download maxBatchSize attempts = some bytes) : object = some bytes := by
  obtain ⟨last, answered, read⟩ := Option.bind_eq_some_iff.mp downloaded
  obtain ⟨status, isBody⟩ := readBody_eq_some read
  rcases mem_of_request answered with nothing | ⟨index, isAnswer⟩
  · cases nothing
  · have served := serves index
    rw [isAnswer] at served
    obtain ⟨stored, isObject, same⟩ := served status
    rw [isObject, same bytes isBody]

/-- The first attempt that is not tried again is the one that counts. -/
theorem request_of_delivers {index left attempt : Nat} {resp : Option Response}
    (within : index < left) (retried : ∀ earlier < index,
      (attempts (attempt + earlier)).isRetried = true)
    (delivers : (attempts (attempt + index)).delivers = true) :
    ∃ last body, request attempts left attempt resp = some last ∧ last.statusCode = 200 ∧
      last.body = some body ∧ last.contentLength = body.length := by
  induction left generalizing index attempt resp with
  | zero => exact absurd within (Nat.not_lt_zero _)
  | succ left induction =>
      cases index with
      | zero =>
          rw [Nat.add_zero] at delivers
          cases isAnswer : attempts attempt with
          | aborted =>
              rw [isAnswer] at delivers
              cases delivers
          | failed =>
              rw [isAnswer] at delivers
              cases delivers
          | answered last =>
              rw [isAnswer, Attempt.delivers] at delivers
              split at delivers
              · rename_i body isBody
                simp only [Bool.and_eq_true, decide_eq_true_eq] at delivers
                refine ⟨last, body, ?_, delivers.1, isBody, delivers.2⟩
                rw [request, isAnswer]
                exact if_pos delivers.1
              · cases delivers
      | succ index =>
          have again : ∃ resp', request attempts (left + 1) attempt resp =
              request attempts left (attempt + 1) resp' := by
            have first := retried 0 (Nat.succ_pos index)
            rw [Nat.add_zero] at first
            cases isAnswer : attempts attempt with
            | aborted =>
                rw [isAnswer] at first
                cases first
            | failed =>
                refine ⟨none, ?_⟩
                rw [request, isAnswer]
            | answered last =>
                rw [isAnswer, Attempt.isRetried, Bool.and_eq_true, decide_eq_true_eq] at first
                refine ⟨some last, ?_⟩
                rw [request, isAnswer]
                dsimp only
                rw [if_neg first.1, if_pos first.2]
          obtain ⟨resp', same⟩ := again
          rw [same]
          apply @induction index (attempt + 1) resp' (Nat.lt_of_succ_lt_succ within)
          · intro earlier before
            rw [Nat.succ_add_eq_add_succ]
            exact retried (earlier + 1) (Nat.succ_lt_succ before)
          · rw [Nat.succ_add_eq_add_succ]
            exact delivers

/-- An object that is not too large is downloaded, if it is delivered in time. -/
theorem download_of_delivers {object : Bytes} {index : Nat}
    (serves : ∀ attempt, (attempts attempt).Serves (some object))
    (small : object.length ≤ maxBatchSize) (within : index < batchDownloadMaxRetries)
    (retried : ∀ earlier < index, (attempts earlier).isRetried = true)
    (delivers : (attempts index).delivers = true) :
    download maxBatchSize attempts = some object := by
  obtain ⟨last, body, answered, status, isBody, announced⟩ :=
    @request_of_delivers attempts index batchDownloadMaxRetries 0 none within
      (by simpa using retried) (by simpa using delivers)
  have same : body = object := by
    rcases mem_of_request answered with nothing | ⟨found, isAnswer⟩
    · cases nothing
    · have served := serves found
      rw [isAnswer] at served
      obtain ⟨stored, isObject, equal⟩ := served status
      cases isObject
      exact equal body isBody
  subst same
  have notLarger : ¬ last.contentLength > maxBatchSize := by omega
  have complete : (body.length : Int) < last.contentLength + 1 := by omega
  rw [download, answered, Option.bind_some, readBody, if_neg (not_not.mpr status),
    if_neg notLarger, isBody]
  exact if_pos complete

section Batches

variable {formats : Formats} {keccak : Bytes → Bytes32}
  {crate : MerkleTreeCrate VerificationDataCommitment Bytes32} {isWhitespace : Char → Bool}
  {requests : Nat → Nat → Attempt} {objects : String → Option Bytes} {batchURLs : String}
  {expectedMerkleRoot : Bytes32}

/-- A batch is read from the object of one of the URLs. -/
theorem getBatch_from_object {batch : List VerificationData}
    (served : Served objects (parseBatchURLs isWhitespace batchURLs) requests)
    (read : getBatchFromDataServices formats keccak crate isWhitespace maxBatchSize requests
      batchURLs expectedMerkleRoot = some batch) :
    ∃ url ∈ parseBatchURLs isWhitespace batchURLs, ∃ bytes, objects url = some bytes ∧
      getBatchFromDataService formats keccak crate bytes expectedMerkleRoot = some batch := by
  obtain ⟨answer, member, found⟩ := List.exists_of_findSome?_eq_some read
  obtain ⟨bytes, rfl, decoded⟩ := Option.bind_eq_some_iff.mp found
  obtain ⟨position, inRange, downloaded⟩ := List.mem_map.mp member
  have isUrl := List.getElem?_eq_getElem (List.mem_range.mp inRange)
  have isObject := download_eq_some (served position _ isUrl) downloaded
  exact ⟨_, List.mem_of_getElem? isUrl, bytes, isObject, decoded⟩

/-- A batch is read, if one URL delivers an object that is a batch. -/
theorem getBatch_of_deliveredInTime
    (served : Served objects (parseBatchURLs isWhitespace batchURLs) requests)
    (delivered : DeliveredInTime (parseBatchURLs isWhitespace batchURLs) requests)
    (batches : ∀ url ∈ parseBatchURLs isWhitespace batchURLs, ∃ bytes,
      objects url = some bytes ∧ bytes.length ≤ maxBatchSize ∧
      (getBatchFromDataService formats keccak crate bytes expectedMerkleRoot).isSome) :
    (getBatchFromDataServices formats keccak crate isWhitespace maxBatchSize requests batchURLs
      expectedMerkleRoot).isSome := by
  obtain ⟨position, inRange, attempt, within, retried, delivers⟩ := delivered
  have isUrl := List.getElem?_eq_getElem inRange
  obtain ⟨bytes, isObject, small, decodes⟩ := batches _ (List.mem_of_getElem? isUrl)
  have serves := served position _ isUrl
  rw [isObject] at serves
  have downloaded := download_of_delivers serves small within retried delivers
  rw [getBatchFromDataServices, getBatchFromDataServiceWithMultipleURLs,
    List.findSome?_isSome_iff]
  refine ⟨some bytes, ?_, decodes⟩
  exact List.mem_map.mpr ⟨position, List.mem_range.mpr inRange, downloaded⟩

end Batches

end AlignedLayer.Operator
