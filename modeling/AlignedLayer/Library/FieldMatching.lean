import Mathlib.Logic.Function.Basic
import Mathlib.Data.List.Forall2

/-!
# Matching the keys of a record to fields

A record is a list of keys with values.  One kind of decoder wants exact keys
and rejects a second value of a field.  The other kind falls back to keys that
agree up to case, and keeps the first value of a field.
-/

namespace AlignedLayer.FieldMatching

variable {Field Key Value : Type}

/-- The value found for each field so far. -/
abbrev Found (Field Value : Type) := Field → Option Value

/-- The first value under a key that passes the test. -/
def valueWhere (accepts : Key → Bool) (entries : List (Key × Value)) : Option Value :=
  (entries.find? fun entry => accepts entry.1).map Prod.snd

@[simp] theorem valueWhere_nil (accepts : Key → Bool) :
    valueWhere accepts ([] : List (Key × Value)) = none :=
  rfl

theorem valueWhere_cons_pos {accepts : Key → Bool} {entry : Key × Value}
    (entries : List (Key × Value)) (accepted : accepts entry.1 = true) :
    valueWhere accepts (entry :: entries) = some entry.2 := by
  simp [valueWhere, accepted]

theorem valueWhere_cons_neg {accepts : Key → Bool} {entry : Key × Value}
    (entries : List (Key × Value)) (rejected : accepts entry.1 = false) :
    valueWhere accepts (entry :: entries) = valueWhere accepts entries := by
  simp [valueWhere, rejected]

/-- A stricter test that passes the first accepted key finds the same value. -/
theorem find?_stricter {accepts stricter : Key → Bool} {entries : List (Key × Value)}
    {entry : Key × Value} (implies : ∀ key, stricter key = true → accepts key = true)
    (first : (entries.find? fun entry => accepts entry.1) = some entry)
    (passes : stricter entry.1 = true) :
    valueWhere stricter entries = some entry.2 := by
  induction entries with
  | nil => cases first
  | cons head entries induction =>
      cases accepted : accepts head.1 with
      | true =>
          have same : head = entry := by simpa [accepted] using first
          subst same
          exact valueWhere_cons_pos entries passes
      | false =>
          have later : (entries.find? fun entry => accepts entry.1) = some entry := by
            simpa [accepted] using first
          have rejected : stricter head.1 = false := by
            cases passed : stricter head.1 with
            | false => rfl
            | true => exact absurd (implies head.1 passed) (by simp [accepted])
          rw [valueWhere_cons_neg entries rejected]
          exact induction later

/-- Where nothing passes the weaker test, nothing passes the stricter. -/
theorem valueWhere_stricter_eq_none {accepts stricter : Key → Bool}
    {entries : List (Key × Value)} (implies : ∀ key, stricter key = true → accepts key = true)
    (absent : (entries.find? fun entry => accepts entry.1) = none) :
    valueWhere stricter entries = none := by
  rw [List.find?_eq_none] at absent
  rw [valueWhere, Option.map_eq_none_iff, List.find?_eq_none]
  intro entry member passed
  exact absent entry member (implies entry.1 passed)

/-! ## Lists of which every item is read -/

section MapM

variable {Item Result : Type} {read : Item → Option Result} {items : List Item}
  {results : List Result}

theorem mapM_eq_some_iff :
    items.mapM read = some results ↔
      List.Forall₂ (fun item result => read item = some result) items results := by
  induction items generalizing results with
  | nil =>
      constructor
      · intro ok
        cases ok
        exact .nil
      · intro related
        cases related
        rfl
  | cons item items induction =>
      rw [List.mapM_cons, Option.bind_eq_bind, Option.bind_eq_some_iff]
      constructor
      · rintro ⟨result, first, rest⟩
        rw [Option.bind_eq_bind, Option.bind_eq_some_iff] at rest
        obtain ⟨others, later, same⟩ := rest
        cases same
        exact .cons first (induction.mp later)
      · intro related
        cases related with
        | cons first later =>
            refine ⟨_, first, ?_⟩
            rw [induction.mpr later]
            rfl

/-- A list is read if and only if all its items are. -/
theorem mapM_isSome_iff : (items.mapM read).isSome ↔ ∀ item ∈ items, (read item).isSome := by
  induction items with
  | nil => simp
  | cons item items induction =>
      rw [List.mapM_cons, List.forall_mem_cons, ← induction]
      cases first : read item with
      | none => simp
      | some result =>
          cases later : items.mapM read with
          | none => simp
          | some others => simp

theorem filterMap_of_mapM (ok : items.mapM read = some results) :
    items.filterMap read = results := by
  have related := mapM_eq_some_iff.mp ok
  clear ok
  induction related with
  | nil => rfl
  | cons first _ induction => rw [List.filterMap_cons_some first, induction]

/-- A reader that reads more reads the same. -/
theorem mapM_of_le {other : Item → Option Result}
    (agrees : ∀ item result, read item = some result → other item = some result)
    (ok : items.mapM read = some results) : items.mapM other = some results := by
  rw [mapM_eq_some_iff] at ok ⊢
  exact ok.imp fun item result => agrees item result

/-- Two readers of a list agree if and only if they agree on every item. -/
theorem mapM_eq_map_iff {Other : Type} {other : Item → Option Other} {others : List Other}
    {convert : Result → Other} (ok : items.mapM read = some results)
    (otherOk : items.mapM other = some others) :
    others = results.map convert ↔ ∀ item ∈ items, ∀ result ∈ read item,
      ∀ decoded ∈ other item, decoded = convert result := by
  rw [mapM_eq_some_iff] at ok otherOk
  induction ok generalizing others with
  | nil =>
      cases otherOk
      simp
  | cons first _ induction =>
      cases otherOk with
      | cons otherFirst otherLater =>
          rw [List.map_cons, List.cons.injEq, List.forall_mem_cons, induction otherLater, first,
            otherFirst]
          simp

end MapM

variable [DecidableEq Field] [DecidableEq Key]

def Found.set (found : Found Field Value) (field : Field) (value : Value) : Found Field Value :=
  Function.update found field (some value)

section Decoders

variable (fields : List Field) (name : Field → Key) (fold : Key → Key)

def placeExact (found : Found Field Value) (entry : Key × Value) : Option (Found Field Value) :=
  match fields.find? fun field => name field = entry.1 with
  | none => some found
  | some field => if (found field).isSome then none else some (found.set field entry.2)

/-- Unknown keys are ignored, and a second value of a field is an error. -/
def collectExact (entries : List (Key × Value)) : Option (Found Field Value) :=
  entries.foldlM (placeExact fields name) fun _ => none

/-- The field without a value that a key stands for. -/
def matching (found : Found Field Value) (key : Key) : Option Field :=
  (fields.find? fun field => (found field).isNone && decide (name field = key)) <|>
    fields.find? fun field => (found field).isNone && decide (fold (name field) = fold key)

def placeFirst (found : Found Field Value) (entry : Key × Value) : Found Field Value :=
  match matching fields name fold found entry.1 with
  | none => found
  | some field => found.set field entry.2

/-- A key that stands for no field without a value is ignored. -/
def collectFirst (entries : List (Key × Value)) : Found Field Value :=
  entries.foldl (placeFirst fields name fold) fun _ => none

end Decoders

variable {fields : List Field} {name : Field → Key} {fold : Key → Key}

omit [DecidableEq Field] in
theorem find?_name {field : Field} (injective : Function.Injective name)
    (member : field ∈ fields) :
    (fields.find? fun other => name other = name field) = some field := by
  cases search : fields.find? fun other => decide (name other = name field) with
  | none =>
      rw [List.find?_eq_none] at search
      exact absurd (search field member) (by simp)
  | some other =>
      have same : name other = name field := by simpa using List.find?_some search
      rw [injective same]

/-! ## Exact keys -/

/-- One more entry fills the field it names and no other. -/
theorem placeExact_apply {found next : Found Field Value} {entry : Key × Value} {field : Field}
    (injective : Function.Injective name) (member : field ∈ fields)
    (placed : placeExact fields name found entry = some next) :
    next field = if entry.1 = name field then some entry.2 else found field := by
  unfold placeExact at placed
  cases search : fields.find? fun other => decide (name other = entry.1) with
  | none =>
      rw [search] at placed
      cases placed
      rw [List.find?_eq_none] at search
      have other : entry.1 ≠ name field := by
        intro same
        exact search field member (by simp [same])
      rw [if_neg other]
  | some target =>
      have named : name target = entry.1 := by simpa using List.find?_some search
      rw [search] at placed
      dsimp only at placed
      split at placed
      · cases placed
      · cases placed
        by_cases same : field = target
        · subst same
          rw [if_pos named.symm, Found.set, Function.update_self]
        · have other : entry.1 ≠ name field := by
            intro equal
            exact same (injective (equal.symm.trans named.symm))
          rw [if_neg other, Found.set, Function.update_of_ne same]

theorem placeExact_fresh {found next : Found Field Value} {entry : Key × Value} {field : Field}
    (injective : Function.Injective name) (member : field ∈ fields)
    (placed : placeExact fields name found entry = some next) (named : entry.1 = name field) :
    found field = none := by
  unfold placeExact at placed
  rw [named, find?_name injective member] at placed
  dsimp only at placed
  split at placed
  case isTrue => cases placed
  case isFalse fresh => simpa using fresh

private theorem foldlM_placeExact {entries : List (Key × Value)} {found result : Found Field Value}
    {field : Field} (injective : Function.Injective name) (member : field ∈ fields)
    (collected : entries.foldlM (placeExact fields name) found = some result) :
    result field = (found field <|> valueWhere (fun key => key = name field) entries) := by
  induction entries generalizing found with
  | nil =>
      cases collected
      simp
  | cons entry entries induction =>
      rw [List.foldlM_cons, Option.bind_eq_bind, Option.bind_eq_some_iff] at collected
      obtain ⟨next, placed, rest⟩ := collected
      rw [induction rest, placeExact_apply injective member placed]
      by_cases named : entry.1 = name field
      · rw [if_pos named, placeExact_fresh injective member placed named,
          valueWhere_cons_pos entries (by simpa using named)]
        rfl
      · rw [if_neg named, valueWhere_cons_neg entries (by simpa using named)]

/-- With exact keys, a field gets the value under its name. -/
theorem collectExact_apply {entries : List (Key × Value)} {found : Found Field Value}
    {field : Field} (injective : Function.Injective name) (member : field ∈ fields)
    (collected : collectExact fields name entries = some found) :
    found field = valueWhere (fun key => key = name field) entries := by
  simpa using foldlM_placeExact injective member collected

/-! ## Keys up to case -/

omit [DecidableEq Field] in
/-- A key stands for the field it agrees with up to case, while that field is
without a value. -/
theorem matching_eq_some_iff {found : Found Field Value} {key : Key} {field : Field}
    (injective : Function.Injective fun field => fold (name field)) (member : field ∈ fields) :
    matching fields name fold found key = some field ↔
      found field = none ∧ fold key = fold (name field) := by
  constructor
  · intro matched
    rw [matching, Option.orElse_eq_orElse, Option.orElse_eq_or, Option.or_eq_some_iff] at matched
    rcases matched with exact | ⟨-, folded⟩
    · have both := List.find?_some exact
      simp only [Bool.and_eq_true, Option.isNone_iff_eq_none, decide_eq_true_eq] at both
      exact ⟨both.1, by rw [both.2]⟩
    · have both := List.find?_some folded
      simp only [Bool.and_eq_true, Option.isNone_iff_eq_none, decide_eq_true_eq] at both
      exact ⟨both.1, both.2.symm⟩
  · rintro ⟨empty, same⟩
    have only : ∀ {other : Field}, fold (name other) = fold key → other = field := by
      intro other agrees
      exact injective (agrees.trans same)
    have folded : (fields.find? fun other =>
        (found other).isNone && decide (fold (name other) = fold key)) = some field := by
      cases search : fields.find? fun other =>
          (found other).isNone && decide (fold (name other) = fold key) with
      | none =>
          rw [List.find?_eq_none] at search
          exact absurd (search field member) (by simp [empty, same])
      | some other =>
          have both := List.find?_some search
          simp only [Bool.and_eq_true, decide_eq_true_eq] at both
          rw [only both.2]
    rw [matching, Option.orElse_eq_orElse, Option.orElse_eq_or, folded]
    cases search : fields.find? fun other =>
        (found other).isNone && decide (name other = key) with
    | none => rfl
    | some other =>
        have both := List.find?_some search
        simp only [Bool.and_eq_true, decide_eq_true_eq] at both
        have same : fold (name other) = fold key := by rw [both.2]
        rw [only same]
        rfl

theorem placeFirst_apply {found : Found Field Value} {entry : Key × Value} {field : Field}
    (injective : Function.Injective fun field => fold (name field)) (member : field ∈ fields) :
    placeFirst fields name fold found entry field =
      (found field <|> if fold entry.1 = fold (name field) then some entry.2 else none) := by
  have iff : matching fields name fold found entry.1 = some field ↔
      found field = none ∧ fold entry.1 = fold (name field) :=
    matching_eq_some_iff injective member
  unfold placeFirst
  cases matched : matching fields name fold found entry.1 with
  | none =>
      rw [matched] at iff
      dsimp only
      cases present : found field with
      | some value => rfl
      | none =>
          have other : fold entry.1 ≠ fold (name field) := by
            intro same
            cases iff.mpr ⟨present, same⟩
          rw [if_neg other]
          rfl
  | some target =>
      rw [matched] at iff
      dsimp only
      by_cases same : field = target
      · subst same
        obtain ⟨empty, agrees⟩ := iff.mp rfl
        rw [empty, if_pos agrees, Found.set, Function.update_self]
        rfl
      · rw [Found.set, Function.update_of_ne same]
        cases present : found field with
        | some value => rfl
        | none =>
            have other : fold entry.1 ≠ fold (name field) := by
              intro agrees
              exact same (Option.some.inj (iff.mpr ⟨present, agrees⟩)).symm
            rw [if_neg other]
            rfl

private theorem foldl_placeFirst {entries : List (Key × Value)} {found : Found Field Value}
    {field : Field} (injective : Function.Injective fun field => fold (name field))
    (member : field ∈ fields) :
    entries.foldl (placeFirst fields name fold) found field =
      (found field <|> valueWhere (fun key => fold key = fold (name field)) entries) := by
  induction entries generalizing found with
  | nil => simp
  | cons entry entries induction =>
      rw [List.foldl_cons, induction, placeFirst_apply injective member]
      cases found field with
      | some value => rfl
      | none =>
          by_cases agrees : fold entry.1 = fold (name field)
          · rw [if_pos agrees, valueWhere_cons_pos entries (by simpa using agrees)]
            rfl
          · rw [if_neg agrees, valueWhere_cons_neg entries (by simpa using agrees)]
            rfl

/-- With keys up to case, a field gets the first value under such a key. -/
theorem collectFirst_apply {entries : List (Key × Value)} {field : Field}
    (injective : Function.Injective fun field => fold (name field)) (member : field ∈ fields) :
    collectFirst fields name fold entries field =
      valueWhere (fun key => fold key = fold (name field)) entries := by
  rw [collectFirst, foldl_placeFirst injective member]
  rfl

/-! ## Records that name their fields -/

omit [DecidableEq Key] in
/-- Under the names of the fields, a test that singles out one of them finds the
value of this field. -/
theorem valueWhere_named {entries : List (Field × Value)} {accepts : Key → Bool} {field : Field}
    (exact : ∀ other, accepts (name other) = decide (other = field)) :
    valueWhere accepts (entries.map fun entry => (name entry.1, entry.2)) =
      (entries.find? fun entry => entry.1 = field).map Prod.snd := by
  induction entries with
  | nil => rfl
  | cons entry entries induction =>
      rw [List.map_cons]
      by_cases same : entry.1 = field
      · rw [valueWhere_cons_pos _ (by rw [exact]; exact decide_eq_true same)]
        simp [same]
      · rw [valueWhere_cons_neg _ (by rw [exact]; exact decide_eq_false same), induction]
        simp [same]

/-- A record with one value for each of its fields is collected. -/
theorem exists_collectExact {entries : List (Field × Value)}
    (injective : Function.Injective name) (known : ∀ entry ∈ entries, entry.1 ∈ fields)
    (distinct : (entries.map Prod.fst).Nodup) :
    ∃ found, collectExact fields name (entries.map fun entry => (name entry.1, entry.2)) =
      some found := by
  have fromFound : ∀ found : Found Field Value, (∀ entry ∈ entries, found entry.1 = none) →
      ∃ result, (entries.map fun entry => (name entry.1, entry.2)).foldlM
        (placeExact fields name) found = some result := by
    induction entries with
    | nil => exact fun found _ => ⟨found, rfl⟩
    | cons entry entries induction =>
        intro found fresh
        rw [List.map_cons, List.nodup_cons] at distinct
        have placed : placeExact fields name found (name entry.1, entry.2) =
            some (found.set entry.1 entry.2) := by
          rw [placeExact]
          dsimp only
          rw [find?_name injective (known entry List.mem_cons_self)]
          dsimp only
          rw [fresh entry List.mem_cons_self, Option.isSome_none, if_neg Bool.false_ne_true]
        rw [List.map_cons, List.foldlM_cons, placed]
        apply induction (fun other member => known other (List.mem_cons_of_mem _ member)) distinct.2
        intro other member
        have differs : other.1 ≠ entry.1 := by
          intro same
          exact distinct.1 (same ▸ List.mem_map_of_mem member)
        rw [Found.set, Function.update_of_ne differs]
        exact fresh other (List.mem_cons_of_mem _ member)
  exact fromFound _ fun _ _ => rfl

end AlignedLayer.FieldMatching
