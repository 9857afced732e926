import Mathlib.Data.List.Basic

/-!
# The URLs of a batch

The data pointer of a batch is a list of URLs between commas.  The fetcher of
the aggregation mode and the operator read it with the same loop, one in Rust
and one in Go: a URL is pushed first and compared with the limit afterwards.
-/

namespace AlignedLayer

section

variable (isWhitespace : Char → Bool)

/-- `trim` and `TrimSpace`. -/
def trim (text : String) : String :=
  String.ofList ((text.toList.dropWhile isWhitespace).reverse.dropWhile isWhitespace).reverse

/-- `split(',')` and `Split`: the empty string has one empty segment. -/
def segments (batchUrls : String) : List String :=
  (batchUrls.toList.splitOn ',').map String.ofList

/-- The segments that are not blank, trimmed. -/
def trimmedSegments (batchUrls : String) : List String :=
  ((segments batchUrls).map (trim isWhitespace)).filter (· ≠ "")

/-- The loop over the segments. -/
def collectUrls (maxBatchUrls : Nat) (urls : List String) : List String → List String
  | [] => urls
  | url :: rest =>
      let trimmedUrl := trim isWhitespace url
      if trimmedUrl ≠ "" then
        if (urls ++ [trimmedUrl]).length > maxBatchUrls then
          urls ++ [trimmedUrl]
        else
          collectUrls maxBatchUrls (urls ++ [trimmedUrl]) rest
      else
        collectUrls maxBatchUrls urls rest

namespace AggregationMode

def maxBatchUrls : Nat := 5

def parseBatchUrls (batchUrls : String) : List String :=
  collectUrls isWhitespace maxBatchUrls [] (segments batchUrls)

end AggregationMode

namespace Operator

def maxBatchURLs : Nat := 5

def parseBatchURLs (batchURLs : String) : List String :=
  collectUrls isWhitespace maxBatchURLs [] (segments batchURLs)

end Operator

end

variable {isWhitespace : Char → Bool}

/-- The loop stops with one URL more than the limit. -/
theorem collectUrls_eq {maxBatchUrls : Nat} {urls rest : List String}
    (below : urls.length ≤ maxBatchUrls) :
    collectUrls isWhitespace maxBatchUrls urls rest =
      (urls ++ (rest.map (trim isWhitespace)).filter (· ≠ "")).take (maxBatchUrls + 1) := by
  induction rest generalizing urls with
  | nil =>
      rw [collectUrls, List.map_nil, List.filter_nil, List.append_nil,
        List.take_of_length_le (Nat.le_succ_of_le below)]
  | cons url rest ih =>
      rw [collectUrls, List.map_cons]
      by_cases blank : trim isWhitespace url = ""
      · rw [if_neg (not_not.mpr blank), List.filter_cons_of_neg (by simpa using blank)]
        exact ih below
      · rw [if_pos blank, List.filter_cons_of_pos (by simpa using blank)]
        have pushed : urls ++ trim isWhitespace url ::
            (rest.map (trim isWhitespace)).filter (· ≠ "") =
            (urls ++ [trim isWhitespace url]) ++
              (rest.map (trim isWhitespace)).filter (· ≠ "") := by
          rw [List.append_assoc, List.singleton_append]
        have length : (urls ++ [trim isWhitespace url]).length = urls.length + 1 := by
          rw [List.length_append, List.length_singleton]
        rw [pushed]
        by_cases full : (urls ++ [trim isWhitespace url]).length > maxBatchUrls
        · have exact : (urls ++ [trim isWhitespace url]).length = maxBatchUrls + 1 := by omega
          rw [if_pos full, ← exact, List.take_left]
        · rw [if_neg full]
          exact ih (Nat.le_of_not_lt full)

theorem parseBatchUrls_eq (batchUrls : String) :
    AggregationMode.parseBatchUrls isWhitespace batchUrls =
      (trimmedSegments isWhitespace batchUrls).take (AggregationMode.maxBatchUrls + 1) :=
  collectUrls_eq (Nat.zero_le _)

theorem parseBatchURLs_eq (batchURLs : String) :
    Operator.parseBatchURLs isWhitespace batchURLs =
      (trimmedSegments isWhitespace batchURLs).take (Operator.maxBatchURLs + 1) :=
  collectUrls_eq (Nat.zero_le _)

/-- Both parsers return the segments that are not blank, up to the fifth,
exactly when there is no sixth. -/
theorem batch_urls_agree_iff (isWhitespace : Char → Bool) (batchUrls : String) :
    (AggregationMode.parseBatchUrls isWhitespace batchUrls =
        Operator.parseBatchURLs isWhitespace batchUrls ∧
      AggregationMode.parseBatchUrls isWhitespace batchUrls =
        (trimmedSegments isWhitespace batchUrls).take 5) ↔
      (trimmedSegments isWhitespace batchUrls).length ≤ 5 := by
  rw [parseBatchUrls_eq, parseBatchURLs_eq]
  constructor
  · rintro ⟨-, cut⟩
    have lengths := congrArg List.length cut
    rw [List.length_take, List.length_take, AggregationMode.maxBatchUrls] at lengths
    omega
  · intro few
    refine ⟨rfl, ?_⟩
    have all : (trimmedSegments isWhitespace batchUrls).length ≤
        AggregationMode.maxBatchUrls + 1 := Nat.le_succ_of_le few
    rw [List.take_of_length_le few, List.take_of_length_le all]

/-- Six URLs are six for both. -/
theorem six_urls_returned :
    AggregationMode.parseBatchUrls Char.isWhitespace "a,b,c,d,e,f" =
        ["a", "b", "c", "d", "e", "f"] ∧
      Operator.parseBatchURLs Char.isWhitespace "a,b,c,d,e,f" = ["a", "b", "c", "d", "e", "f"] ∧
      AggregationMode.parseBatchUrls Char.isWhitespace "a,b,c,d,e,f" ≠
        (trimmedSegments Char.isWhitespace "a,b,c,d,e,f").take 5 := by
  decide +kernel

/-! ## Plain URLs -/

/-- No comma and no white space. -/
def PlainText (isWhitespace : Char → Bool) (text : String) : Prop :=
  ∀ character ∈ text.toList, character ≠ ',' ∧ isWhitespace character = false

theorem PlainText.append {left right : String} (leftPlain : PlainText isWhitespace left)
    (rightPlain : PlainText isWhitespace right) : PlainText isWhitespace (left ++ right) := by
  intro character member
  rw [String.toList_append] at member
  rcases List.mem_append.mp member with inLeft | inRight
  · exact leftPlain character inLeft
  · exact rightPlain character inRight

theorem PlainText.trim {text : String} (plain : PlainText isWhitespace text) :
    AlignedLayer.trim isWhitespace text = text := by
  have kept : ∀ characters : List Char,
      (∀ character ∈ characters, isWhitespace character = false) →
        characters.dropWhile isWhitespace = characters := by
    intro characters visible
    cases characters with
    | nil => rfl
    | cons first rest =>
        rw [List.dropWhile_cons, visible first List.mem_cons_self]
        rfl
  have forwards := kept text.toList fun character member => (plain character member).2
  have backwards := kept text.toList.reverse fun character member =>
    (plain character (List.mem_reverse.mp member)).2
  rw [AlignedLayer.trim, forwards, backwards, List.reverse_reverse, String.ofList_toList]

theorem segments_intercalate {urls : List String} (nonempty : urls ≠ [])
    (plain : ∀ url ∈ urls, PlainText isWhitespace url) :
    segments (",".intercalate urls) = urls := by
  have split : (",".intercalate urls).toList.splitOn ',' = urls.map String.toList := by
    rw [String.toList_intercalate]
    apply List.splitOn_intercalate
    · intro characters member comma
      obtain ⟨url, isUrl, rfl⟩ := List.mem_map.mp member
      exact (plain url isUrl _ comma).1 rfl
    · rw [ne_eq, List.map_eq_nil_iff]
      exact nonempty
  have restored : String.ofList ∘ String.toList = id := by
    funext url
    exact String.ofList_toList
  rw [segments, split, List.map_map, restored, List.map_id]

/-- Plain URLs that are joined to a pointer are read back from it. -/
theorem trimmedSegments_intercalate {urls : List String} (nonempty : urls ≠ [])
    (plain : ∀ url ∈ urls, PlainText isWhitespace url) (visible : ∀ url ∈ urls, url ≠ "") :
    trimmedSegments isWhitespace (",".intercalate urls) = urls := by
  have trimmed : urls.map (trim isWhitespace) = urls.map id := by
    apply List.map_congr_left
    intro url member
    exact (plain url member).trim
  rw [trimmedSegments, segments_intercalate nonempty plain, trimmed, List.map_id,
    List.filter_eq_self]
  intro url member
  exact decide_eq_true (visible url member)

end AlignedLayer
