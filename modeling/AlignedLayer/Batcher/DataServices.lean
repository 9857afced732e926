import AlignedLayer.Batcher.BatchBytes
import AlignedLayer.Batcher.Signatures
import AlignedLayer.Library.Retry
import AlignedLayer.Operator.BatchUrls

/-!
# The data services of the batcher

`submit_batch` uploads a batch under the hexadecimal digits of its Merkle root
before it calls the contract with the URLs of the uploads that succeeded.  The
machine of the batcher runs here together with the objects that are stored.
-/

namespace AlignedLayer

/-! ## Names -/

/-- `hex::encode`. -/
def hexEncode (bytes : Bytes) : String :=
  String.ofList (bytes.flatMap fun byte =>
    [Nat.digitChar (byte.toNat / 16), Nat.digitChar (byte.toNat % 16)])

/-- The `file_name` of `submit_batch`. -/
def fileName (batchMerkleRoot : Bytes32) : String :=
  hexEncode batchMerkleRoot.toList ++ ".json"

/-- The endpoints the uploaded objects are downloaded from.  The second one is
used if its client and its bucket are configured as well. -/
structure DataServices where
  downloadEndpoint : String
  downloadEndpointSecondary : Option String

def objectUrl (endpoint fileName : String) : String :=
  endpoint ++ "/" ++ fileName

def DataServices.endpoints (services : DataServices) : List String :=
  services.downloadEndpoint :: services.downloadEndpointSecondary.toList

/-! ## Uploads -/

/-- What is stored, by the URL it is downloaded from. -/
abbrev Objects := String → Option Bytes

/-- An answer to `upload_object`.  A request may take effect and still fail. -/
inductive PutObject where
  | confirmed
  | failed (error : String) (stored : Bool)

def uploadBatchToS3Retryable (batchBytes : Bytes) (url : String) (put : PutObject)
    (objects : Objects) : Except (RetryError String) Unit × Objects :=
  match put with
  | .confirmed => (.ok (), Function.update objects url (some batchBytes))
  | .failed error stored =>
      (.error (.transient error),
        if stored then Function.update objects url (some batchBytes) else objects)

def uploadBatchToS3 (batchBytes : Bytes) (url : String) (puts : Nat → PutObject)
    (objects : Objects) : Except String Unit × Objects :=
  let (result, after) :=
    retryFunction (fun attempt => uploadBatchToS3Retryable batchBytes url (puts attempt))
      System.ethereumCallMaxRetries 0 objects
  (result.mapError RetryError.inner, after)

/-- One of the uploads; its URL is collected if it succeeds. -/
def collectUpload (batchBytes : Bytes) (url : String) (puts : Nat → PutObject)
    (collected : List String × Objects) : List String × Objects :=
  match uploadBatchToS3 batchBytes url puts collected.2 with
  | (.ok (), objects) => (collected.1 ++ [url], objects)
  | (.error _, objects) => (collected.1, objects)

def uploadBatchToMultipleS3 (services : DataServices) (batchBytes : Bytes) (fileName : String)
    (primary secondary : Nat → PutObject) (objects : Objects) :
    Except String String × Objects :=
  let first :=
    collectUpload batchBytes (objectUrl services.downloadEndpoint fileName) primary ([], objects)
  let (successfulUrls, objects) :=
    match services.downloadEndpointSecondary with
    | none => first
    | some endpoint =>
        collectUpload batchBytes (objectUrl endpoint fileName) secondary first
  if successfulUrls.isEmpty then
    (.error "Failed to upload to any S3 bucket", objects)
  else
    (.ok (",".intercalate successfulUrls), objects)

/-! ## The batcher and its objects -/

structure Publishing where
  system : System
  objects : Objects
  /-- The `batch_data_pointer` of a batch, by its number. -/
  batchDataPointers : Nat → Option String

/-- The calls `submit_batch` passes the pointer to. -/
def Label.passesPointer : Label → Bool
  | .simulate _ _ | .send _ | .sendFallback _ => true
  | _ => false

namespace Publishing

inductive Label where
  | batcher (label : AlignedLayer.Label)
  /-- The answers of the two buckets to the attempts. -/
  | upload (primary secondary : Nat → PutObject)

def hasPointer (state : Publishing) : Bool :=
  match state.system.shared.batch with
  | some (batch, _) => (state.batchDataPointers batch.number).isSome
  | none => false

/-- The upload of the batch in flight. -/
def upload (services : DataServices) (primary secondary : Nat → PutObject)
    (state : Publishing) : Option Publishing :=
  match state.system.shared.batch with
  | some (batch, .uploading) =>
      if state.hasPointer then
        none
      else
        match uploadBatchToMultipleS3 services (batchBytes batch.entries)
            (fileName batch.call.batchMerkleRoot) primary secondary state.objects with
        | (.ok batchDataPointer, objects) =>
            some { state with
              objects := objects
              batchDataPointers :=
                Function.update state.batchDataPointers batch.number (some batchDataPointer) }
        | (.error _, objects) =>
            state.system.failSubmission.map fun system =>
              { state with system := system, objects := objects }
  | _ => none

def machine (environment : Environment) (config : Config) (services : DataServices) :
    Machine Publishing Label where
  step state label :=
    match label with
    | .batcher label =>
        if label.passesPointer && !state.hasPointer then
          none
        else
          ((AlignedLayer.batcher environment config).step state.system label).map fun system =>
            { state with system := system }
    | .upload primary secondary => state.upload services primary secondary

/-- Nothing is stored and no batch has been uploaded. -/
def initial (system : System) : Publishing :=
  { system := system
    objects := fun _ => none
    batchDataPointers := fun _ => none }

end Publishing

/-! ## One name for each root -/

theorem digitChar_injective {left right : Nat} (leftDigit : left < 16) (rightDigit : right < 16)
    (same : Nat.digitChar left = Nat.digitChar right) : left = right := by
  have all : ∀ left < 16, ∀ right < 16,
      Nat.digitChar left = Nat.digitChar right → left = right := by decide
  exact all left leftDigit right rightDigit same

theorem hexEncode_injective : Function.Injective hexEncode := by
  intro left right same
  have digits := String.ofList_injective same
  clear same
  induction left generalizing right with
  | nil =>
      cases right with
      | nil => rfl
      | cons byte right => cases digits
  | cons byte left induction =>
      cases right with
      | nil => cases digits
      | cons other right =>
          simp only [List.flatMap_cons, List.cons_append, List.nil_append,
            List.cons.injEq] at digits
          obtain ⟨high, low, rest⟩ := digits
          have bound := byte.toNat_lt
          have otherBound := other.toNat_lt
          have sameHigh := digitChar_injective (by omega) (by omega) high
          have sameLow := digitChar_injective (by omega) (by omega) low
          have sameByte : byte = other := UInt8.toNat_inj.mp (by omega)
          rw [sameByte, induction rest]

theorem length_hexEncode (bytes : Bytes) :
    (hexEncode bytes).toList.length = 2 * bytes.length := by
  rw [hexEncode, String.toList_ofList, List.length_flatMap]
  simp [Nat.mul_comm]

theorem length_fileName (root : Bytes32) : (fileName root).toList.length = 69 := by
  rw [fileName, String.toList_append, List.length_append, length_hexEncode, Vector.length_toList]
  rfl

/-- The name is the end of the URL, whatever the endpoint. -/
theorem root_of_objectUrl {endpoint other : String} {root otherRoot : Bytes32}
    (same : objectUrl endpoint (fileName root) = objectUrl other (fileName otherRoot)) :
    root = otherRoot := by
  have characters := congrArg String.toList same
  simp only [objectUrl, String.toList_append] at characters
  have names := (List.append_inj' characters
    ((length_fileName root).trans (length_fileName otherRoot).symm)).2
  have digits := congrArg String.ofList names
  rw [String.ofList_toList, String.ofList_toList, fileName, fileName] at digits
  have encoded := congrArg String.toList digits
  rw [String.toList_append, String.toList_append] at encoded
  exact Vector.toList_inj.mp
    (hexEncode_injective (String.toList_inj.mp (List.append_cancel_right encoded)))

/-- Graphic characters of ASCII are no white space. -/
def SeesGraphic (isWhitespace : Char → Bool) : Prop :=
  ∀ character : Char, 33 ≤ character.toNat → character.toNat ≤ 126 → isWhitespace character = false

/-- A graphic character of ASCII other than the comma. -/
def isPlain (character : Char) : Bool :=
  33 ≤ character.toNat && character.toNat ≤ 126 && character != ','

theorem plainText_of_isPlain {isWhitespace : Char → Bool} (sees : SeesGraphic isWhitespace)
    {text : String} (plain : text.toList.all isPlain = true) : PlainText isWhitespace text := by
  intro character member
  have isPlain := List.all_eq_true.mp plain character member
  simp only [AlignedLayer.isPlain, Bool.and_eq_true, decide_eq_true_eq, bne_iff_ne] at isPlain
  obtain ⟨⟨first, last⟩, noComma⟩ := isPlain
  exact ⟨noComma, sees character first last⟩

theorem plainText_fileName {isWhitespace : Char → Bool} (sees : SeesGraphic isWhitespace)
    (root : Bytes32) : PlainText isWhitespace (fileName root) := by
  apply PlainText.append
  · apply plainText_of_isPlain sees
    have digits : ∀ digit < 16, isPlain (Nat.digitChar digit) = true := by decide
    rw [List.all_eq_true]
    intro character member
    rw [hexEncode, String.toList_ofList, List.mem_flatMap] at member
    obtain ⟨byte, -, isDigit⟩ := member
    have bound := byte.toNat_lt
    simp only [List.mem_cons, List.not_mem_nil, or_false] at isDigit
    rcases isDigit with rfl | rfl
    · exact digits _ (by omega)
    · exact digits _ (by omega)
  · exact plainText_of_isPlain sees rfl

theorem plainText_objectUrl {isWhitespace : Char → Bool} (sees : SeesGraphic isWhitespace)
    {endpoint : String} (plain : PlainText isWhitespace endpoint) (root : Bytes32) :
    PlainText isWhitespace (objectUrl endpoint (fileName root)) := by
  apply PlainText.append
  · exact plain.append (plainText_of_isPlain sees rfl)
  · exact plainText_fileName sees root

theorem objectUrl_ne_empty (endpoint : String) (root : Bytes32) :
    objectUrl endpoint (fileName root) ≠ "" := by
  intro empty
  have length := congrArg (fun text : String => text.toList.length) empty
  simp only [objectUrl, String.toList_append, List.length_append, length_fileName] at length
  simp at length

/-! ## What uploads leave behind -/

/-- All that is stored is so by right. -/
def Objects.Holds (Stored : String → Bytes → Prop) (objects : Objects) : Prop :=
  ∀ url bytes, objects url = some bytes → Stored url bytes

/-- No object disappears. -/
def Objects.Keeps (before after : Objects) : Prop :=
  ∀ url, (before url).isSome → (after url).isSome

section Uploads

variable {Stored : String → Bytes → Prop} {batchBytes : Bytes} {url : String} {objects : Objects}

theorem Objects.Holds.update (holds : objects.Holds Stored) (stored : Stored url batchBytes) :
    Objects.Holds Stored (Function.update objects url (some batchBytes)) := by
  intro other bytes found
  by_cases same : other = url
  · subst same
    rw [Function.update_self, Option.some.injEq] at found
    exact found ▸ stored
  · rw [Function.update_of_ne same] at found
    exact holds other bytes found

theorem Objects.keeps_update (objects : Objects) (url : String) (bytes : Bytes) :
    objects.Keeps (Function.update objects url (some bytes)) := by
  intro other found
  by_cases same : other = url
  · rw [same, Function.update_self]
    rfl
  · rw [Function.update_of_ne same]
    exact found

theorem Objects.Keeps.trans {middle after : Objects} (first : objects.Keeps middle)
    (second : middle.Keeps after) : objects.Keeps after :=
  fun url found => second url (first url found)

theorem uploadBatchToS3_spec (puts : Nat → PutObject) (stored : Stored url batchBytes)
    (holds : objects.Holds Stored) :
    (uploadBatchToS3 batchBytes url puts objects).2.Holds Stored ∧
      objects.Keeps (uploadBatchToS3 batchBytes url puts objects).2 ∧
      ((uploadBatchToS3 batchBytes url puts objects).1 = .ok () →
        ((uploadBatchToS3 batchBytes url puts objects).2 url).isSome) := by
  have attempts : ∀ attempt after, Objects.Holds Stored after ∧ objects.Keeps after →
      (Objects.Holds Stored (uploadBatchToS3Retryable batchBytes url (puts attempt) after).2 ∧
        objects.Keeps (uploadBatchToS3Retryable batchBytes url (puts attempt) after).2) ∧
      ((uploadBatchToS3Retryable batchBytes url (puts attempt) after).1 = .ok () →
        ((uploadBatchToS3Retryable batchBytes url (puts attempt) after).2 url).isSome) := by
    intro attempt after kept
    have updated := And.intro (kept.1.update stored)
      (kept.2.trans (after.keeps_update url batchBytes))
    cases puts attempt with
    | confirmed =>
        refine ⟨updated, fun _ => ?_⟩
        rw [uploadBatchToS3Retryable]
        dsimp only
        rw [Function.update_self]
        rfl
    | failed error isStored =>
        refine ⟨?_, fun confirmed => by cases confirmed⟩
        cases isStored with
        | true => exact updated
        | false => exact kept
  obtain ⟨⟨holdsAfter, keeps⟩, confirmed⟩ :=
    @retryFunction_rule _ _ _ _ System.ethereumCallMaxRetries 0 objects
      (fun after => Objects.Holds Stored after ∧ objects.Keeps after)
      (fun answer => answer.1 = .ok () → (answer.2 url).isSome) attempts
      ⟨holds, fun _ found => found⟩
  exact ⟨holdsAfter, keeps, fun succeeded => confirmed (mapError_eq_ok.mp succeeded)⟩

/-- The URLs collected so far, of those that were tried, all have an object. -/
structure Collected (Stored : String → Bytes → Prop) (start : Objects) (tried : List String)
    (collected : List String × Objects) : Prop where
  holds : collected.2.Holds Stored
  keeps : start.Keeps collected.2
  present : ∀ url ∈ collected.1, (collected.2 url).isSome
  tried : collected.1.Sublist tried

theorem Collected.collectUpload {start : Objects} {tried : List String}
    {collected : List String × Objects} (before : Collected Stored start tried collected)
    (puts : Nat → PutObject) (stored : Stored url batchBytes) :
    Collected Stored start (tried ++ [url])
      (AlignedLayer.collectUpload batchBytes url puts collected) := by
  obtain ⟨holds, keeps, confirmed⟩ := uploadBatchToS3_spec puts stored before.holds
  rw [AlignedLayer.collectUpload]
  split
  · rename_i after answer
    rw [answer] at holds keeps confirmed
    refine ⟨holds, before.keeps.trans keeps, ?_, before.tried.append (.refl _)⟩
    intro other member
    rcases List.mem_append.mp member with earlier | isUrl
    · exact keeps other (before.present other earlier)
    · rw [List.mem_singleton.mp isUrl]
      exact confirmed rfl
  · rename_i error after answer
    rw [answer] at holds keeps
    refine ⟨holds, before.keeps.trans keeps, ?_,
      before.tried.trans (List.sublist_append_left _ _)⟩
    intro other member
    exact keeps other (before.present other member)

/-- A pointer lists URLs of the file, one of each endpoint at most, where
something is stored. -/
structure Locates (services : DataServices) (objects : Objects) (name pointer : String) :
    Prop where
  found : ∃ urls : List String, urls ≠ [] ∧
    urls.Sublist (services.endpoints.map fun endpoint => objectUrl endpoint name) ∧
    pointer = ",".intercalate urls ∧ ∀ url ∈ urls, (objects url).isSome

theorem Locates.keep {services : DataServices} {after : Objects} {name pointer : String}
    (locates : Locates services objects name pointer) (keeps : objects.Keeps after) :
    Locates services after name pointer := by
  obtain ⟨urls, nonempty, tried, joined, present⟩ := locates.found
  exact ⟨urls, nonempty, tried, joined, fun url member => keeps url (present url member)⟩

theorem uploadBatchToMultipleS3_spec {services : DataServices} {name : String}
    (primary secondary : Nat → PutObject) (holds : objects.Holds Stored)
    (stored : ∀ endpoint ∈ services.endpoints, Stored (objectUrl endpoint name) batchBytes)
    {answer : Except String String} {after : Objects}
    (uploaded : uploadBatchToMultipleS3 services batchBytes name primary secondary objects =
      (answer, after)) :
    after.Holds Stored ∧ objects.Keeps after ∧
      ∀ pointer, answer = .ok pointer → Locates services after name pointer := by
  have start : Collected Stored objects [] ([], objects) :=
    ⟨holds, fun _ found => found, fun _ member => (List.not_mem_nil member).elim, .refl _⟩
  have first := start.collectUpload primary (stored services.downloadEndpoint List.mem_cons_self)
  obtain ⟨urls, last, collected⟩ : ∃ urls last,
      Collected Stored objects
        (services.endpoints.map fun endpoint => objectUrl endpoint name) (urls, last) ∧
      (if urls.isEmpty then (.error "Failed to upload to any S3 bucket", last)
        else (.ok (",".intercalate urls), last)) = (answer, after) := by
    rw [uploadBatchToMultipleS3] at uploaded
    dsimp only at uploaded
    cases second : services.downloadEndpointSecondary with
    | none =>
        rw [second] at uploaded
        rw [DataServices.endpoints, second]
        exact ⟨_, _, first, uploaded⟩
    | some endpoint =>
        rw [second] at uploaded
        have both := first.collectUpload secondary (stored endpoint (by
          rw [DataServices.endpoints, second]
          exact List.mem_cons_of_mem _ List.mem_cons_self))
        rw [DataServices.endpoints, second]
        exact ⟨_, _, both, uploaded⟩
  obtain ⟨collected, finished⟩ := collected
  split at finished
  · cases finished
    refine ⟨collected.holds, collected.keeps, ?_⟩
    intro pointer failed
    cases failed
  · rename_i nonempty
    cases finished
    refine ⟨collected.holds, collected.keeps, ?_⟩
    intro pointer succeeded
    cases succeeded
    refine ⟨urls, ?_, collected.tried, rfl, collected.present⟩
    intro empty
    rw [empty] at nonempty
    exact nonempty rfl

end Uploads

end AlignedLayer
