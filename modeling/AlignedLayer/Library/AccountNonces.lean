import Mathlib.Data.List.Basic
import Mathlib.Data.List.Infix

/-!
# The transactions of an account

A chain includes the transactions of an account in the order of their nonces,
and one for each nonce.  If transactions are only ever signed with a nonce
that the chain has reached, all that wait have the same nonce, and the
inclusion of one of them rules out the others.
-/

namespace AlignedLayer

/-- `sent` are the transactions that were broadcast, with their nonces;
`included` are the positions of those the chain has included. -/
structure NonceAccount (Payload : Type) where
  nonce : Nat
  sent : List (Nat × Payload)
  included : List Nat

namespace NonceAccount

variable {Payload : Type}

def send (nonce : Nat) (payload : Payload) (account : NonceAccount Payload) :
    NonceAccount Payload :=
  { account with sent := account.sent ++ [(nonce, payload)] }

/-- The transaction at the position is included. -/
def mine (position : Nat) (account : NonceAccount Payload) : Option (NonceAccount Payload) :=
  match account.sent[position]? with
  | none => none
  | some transaction =>
      if transaction.1 = account.nonce then
        some { account with
          nonce := account.nonce + 1
          included := account.included ++ [position] }
      else
        none

/-- The chain may still include the transaction at the position. -/
def IsPending (account : NonceAccount Payload) (position : Nat) : Prop :=
  ∃ transaction, account.sent[position]? = some transaction ∧ account.nonce ≤ transaction.1

/-- Nothing is waiting. -/
def Settled (account : NonceAccount Payload) : Prop :=
  ∀ transaction ∈ account.sent, transaction.1 < account.nonce

/-- No transaction runs ahead of the chain, those that are included are behind
it, and no two of them have the same nonce. -/
structure InOrder (account : NonceAccount Payload) : Prop where
  sent_le : ∀ transaction ∈ account.sent, transaction.1 ≤ account.nonce
  included_lt : ∀ position ∈ account.included, ∃ transaction,
    account.sent[position]? = some transaction ∧ transaction.1 < account.nonce
  included_inj : ∀ left ∈ account.included, ∀ right ∈ account.included,
    (account.sent[left]?).map Prod.fst = (account.sent[right]?).map Prod.fst → left = right

variable {account next later : NonceAccount Payload} {nonce position : Nat} {payload : Payload}

theorem mine_eq_some (mined : account.mine position = some next) :
    (∃ payload, account.sent[position]? = some (account.nonce, payload)) ∧
      next = { account with
        nonce := account.nonce + 1
        included := account.included ++ [position] } := by
  simp only [mine] at mined
  split at mined
  · cases mined
  · rename_i transaction found
    split at mined
    · rename_i same
      cases mined
      exact ⟨⟨transaction.2, by rw [found, ← same]⟩, rfl⟩
    · cases mined

theorem getElem?_send {transaction : Nat × Payload}
    (found : account.sent[position]? = some transaction) :
    (account.send nonce payload).sent[position]? = account.sent[position]? :=
  List.getElem?_append_left (List.getElem?_eq_some_iff.mp found).1

/-! ## In order -/

theorem InOrder.send (inOrder : account.InOrder) (reached : nonce ≤ account.nonce) :
    (account.send nonce payload).InOrder where
  sent_le transaction member := by
    rcases List.mem_append.mp member with before | new
    · exact inOrder.sent_le transaction before
    · rw [List.mem_singleton.mp new]
      exact reached
  included_lt position member := by
    obtain ⟨transaction, found, behind⟩ := inOrder.included_lt position member
    exact ⟨transaction, (getElem?_send found).trans found, behind⟩
  included_inj left leftMember right rightMember same := by
    obtain ⟨first, leftFound, -⟩ := inOrder.included_lt left leftMember
    obtain ⟨second, rightFound, -⟩ := inOrder.included_lt right rightMember
    rw [getElem?_send leftFound, getElem?_send rightFound] at same
    exact inOrder.included_inj left leftMember right rightMember same

theorem InOrder.mine (inOrder : account.InOrder) (mined : account.mine position = some next) :
    next.InOrder := by
  obtain ⟨⟨payload, found⟩, rfl⟩ := mine_eq_some mined
  have ahead : ∀ other ∈ account.included,
      (account.sent[other]?).map Prod.fst ≠ (account.sent[position]?).map Prod.fst := by
    intro other member
    obtain ⟨transaction, isSent, behind⟩ := inOrder.included_lt other member
    rw [isSent, found]
    exact fun same => Nat.ne_of_lt behind (Option.some.inj same)
  refine ⟨fun transaction member => Nat.le_succ_of_le (inOrder.sent_le transaction member),
    ?_, ?_⟩
  · intro other member
    rcases List.mem_append.mp member with before | new
    · obtain ⟨transaction, isSent, behind⟩ := inOrder.included_lt other before
      exact ⟨transaction, isSent, Nat.lt_succ_of_lt behind⟩
    · rw [List.mem_singleton.mp new]
      exact ⟨_, found, Nat.lt_succ_self _⟩
  · intro left leftMember right rightMember same
    rcases List.mem_append.mp leftMember with leftBefore | leftNew
    · rcases List.mem_append.mp rightMember with rightBefore | rightNew
      · exact inOrder.included_inj left leftBefore right rightBefore same
      · rw [List.mem_singleton.mp rightNew] at same
        exact absurd same (ahead left leftBefore)
    · rcases List.mem_append.mp rightMember with rightBefore | rightNew
      · rw [List.mem_singleton.mp leftNew] at same
        exact absurd same.symm (ahead right rightBefore)
      · rw [List.mem_singleton.mp leftNew, List.mem_singleton.mp rightNew]

/-- An inclusion rules out whatever was sent before it. -/
theorem InOrder.settled_of_mine (inOrder : account.InOrder)
    (mined : account.mine position = some next) : next.Settled := by
  obtain ⟨-, rfl⟩ := mine_eq_some mined
  intro transaction member
  exact Nat.lt_succ_of_le (inOrder.sent_le transaction member)

theorem InOrder.nonce_eq_of_isPending (inOrder : account.InOrder)
    (pending : account.IsPending position) :
    ∃ payload, account.sent[position]? = some (account.nonce, payload) := by
  obtain ⟨transaction, found, ahead⟩ := pending
  have behind := inOrder.sent_le transaction (List.mem_of_getElem? found)
  refine ⟨transaction.2, ?_⟩
  rw [found, ← Nat.le_antisymm behind ahead]

theorem Settled.not_isPending (settled : account.Settled) : ¬ account.IsPending position := by
  rintro ⟨transaction, found, ahead⟩
  exact Nat.not_lt.mpr ahead (settled transaction (List.mem_of_getElem? found))

/-! ## Later states -/

/-- What an account may become: more is sent, and more is included that the
chain had not passed. -/
structure Extends (account later : NonceAccount Payload) : Prop where
  nonce_le : account.nonce ≤ later.nonce
  sent : account.sent <+: later.sent
  included : ∃ more, later.included = account.included ++ more ∧
    ∀ position ∈ more, ∃ transaction, later.sent[position]? = some transaction ∧
      account.nonce ≤ transaction.1

theorem Extends.refl (account : NonceAccount Payload) : account.Extends account where
  nonce_le := Nat.le_refl _
  sent := List.prefix_rfl
  included := ⟨[], (List.append_nil _).symm, by simp⟩

theorem Extends.send (extended : account.Extends later) :
    account.Extends (later.send nonce payload) where
  nonce_le := extended.nonce_le
  sent := extended.sent.trans (List.prefix_append _ _)
  included := by
    obtain ⟨more, same, ahead⟩ := extended.included
    refine ⟨more, same, ?_⟩
    intro position member
    obtain ⟨transaction, found, reached⟩ := ahead position member
    exact ⟨transaction, (getElem?_send found).trans found, reached⟩

theorem Extends.mine (extended : account.Extends later) (mined : later.mine position = some next) :
    account.Extends next := by
  obtain ⟨⟨payload, found⟩, rfl⟩ := mine_eq_some mined
  obtain ⟨more, same, ahead⟩ := extended.included
  refine ⟨Nat.le_succ_of_le extended.nonce_le, extended.sent, more ++ [position], ?_, ?_⟩
  · rw [same, List.append_assoc]
  · intro other member
    rcases List.mem_append.mp member with before | new
    · exact ahead other before
    · rw [List.mem_singleton.mp new]
      exact ⟨_, found, extended.nonce_le⟩

/-- A transaction that was waiting is included later only if it has the nonce
that was next. -/
theorem Extends.nonce_of_included (extended : account.Extends later) (inOrder : account.InOrder)
    (isSent : position < account.sent.length) (isIncluded : position ∈ later.included)
    (waiting : position ∉ account.included) :
    (later.sent[position]?).map Prod.fst = some account.nonce := by
  obtain ⟨more, same, ahead⟩ := extended.included
  rw [same] at isIncluded
  have new := (List.mem_append.mp isIncluded).resolve_left waiting
  obtain ⟨transaction, found, reached⟩ := ahead position new
  obtain ⟨rest, append⟩ := extended.sent
  have before : account.sent[position]? = some transaction := by
    rw [← append, List.getElem?_append_left isSent] at found
    exact found
  have behind := inOrder.sent_le transaction (List.mem_of_getElem? before)
  rw [found]
  exact congrArg some (Nat.le_antisymm behind reached)

/-- Of the transactions that wait, at most one is ever included. -/
theorem Extends.included_unique (extended : account.Extends later) (inOrder : account.InOrder)
    (laterOrder : later.InOrder) {left right : Nat} (leftSent : left < account.sent.length)
    (rightSent : right < account.sent.length) (leftIncluded : left ∈ later.included)
    (rightIncluded : right ∈ later.included) (leftWaiting : left ∉ account.included)
    (rightWaiting : right ∉ account.included) : left = right := by
  apply laterOrder.included_inj left leftIncluded right rightIncluded
  calc (later.sent[left]?).map Prod.fst
      = some account.nonce :=
        extended.nonce_of_included inOrder leftSent leftIncluded leftWaiting
    _ = (later.sent[right]?).map Prod.fst :=
        (extended.nonce_of_included inOrder rightSent rightIncluded rightWaiting).symm

/-- What is settled stays as it is. -/
theorem Extends.mem_included_iff (extended : account.Extends later) (settled : account.Settled)
    (isSent : position < account.sent.length) :
    position ∈ later.included ↔ position ∈ account.included := by
  obtain ⟨more, same, ahead⟩ := extended.included
  rw [same, List.mem_append]
  constructor
  · rintro (before | new)
    · exact before
    · obtain ⟨transaction, found, reached⟩ := ahead position new
      obtain ⟨rest, append⟩ := extended.sent
      rw [← append, List.getElem?_append_left isSent] at found
      exact absurd (settled transaction (List.mem_of_getElem? found)) (Nat.not_lt.mpr reached)
  · exact .inl

end NonceAccount

end AlignedLayer
