import Mathlib.Algebra.Order.Ring.Nat
import Mathlib.Logic.Function.Basic

/-!
# Standard tokens

Balances and allowances are words.  A transfer on behalf of an owner spends the
allowance of the spender and moves the exact amount.  One transfer of a sum is
the transfers of its parts, except that an owner who is paid with its own
tokens has to hold the whole sum.
-/

namespace AlignedLayer

structure Erc20 (Account : Type) (width : Nat) where
  balances : Account → BitVec width
  allowances : Account → Account → BitVec width

namespace Erc20

/-- What standard tokens differ in: the accounts they refuse, and whether the
greatest allowance is never spent. -/
structure Rules (Account : Type) where
  accepts : Account → Bool
  keepsGreatest : Bool

variable {Account : Type} [DecidableEq Account] {width : Nat} (rules : Rules Account)

def spend (owner spender : Account) (value : BitVec width) (token : Erc20 Account width) :
    Erc20 Account width :=
  let remaining := token.allowances owner spender - value
  { token with
    allowances := Function.update token.allowances owner
      (Function.update (token.allowances owner) spender remaining) }

/-- The spender may take any amount. -/
def Unlimited (owner spender : Account) (token : Erc20 Account width) : Prop :=
  rules.keepsGreatest ∧ token.allowances owner spender = BitVec.allOnes width

instance (owner spender : Account) (token : Erc20 Account width) :
    Decidable (Unlimited rules owner spender token) :=
  inferInstanceAs (Decidable (_ ∧ _))

def spendAllowance (owner spender : Account) (value : BitVec width) (token : Erc20 Account width) :
    Option (Erc20 Account width) :=
  if Unlimited rules owner spender token then
    some token
  else if value ≤ token.allowances owner spender then
    some (token.spend owner spender value)
  else
    none

def move (sender recipient : Account) (value : BitVec width) (token : Erc20 Account width) :
    Erc20 Account width :=
  let debited := Function.update token.balances sender (token.balances sender - value)
  { token with balances := Function.update debited recipient (debited recipient + value) }

def transfer (sender recipient : Account) (value : BitVec width) (token : Erc20 Account width) :
    Option (Erc20 Account width) :=
  if rules.accepts sender ∧ rules.accepts recipient ∧ value ≤ token.balances sender then
    some (token.move sender recipient value)
  else
    none

def transferFrom (spender owner recipient : Account) (value : BitVec width)
    (token : Erc20 Account width) : Option (Erc20 Account width) :=
  (token.spendAllowance rules owner spender value).bind fun spent =>
    spent.transfer rules owner recipient value

/-- Transfers one after another. -/
def transfersFrom (spender owner recipient : Account) :
    List (BitVec width) → Erc20 Account width → Option (Erc20 Account width)
  | [], token => some token
  | value :: values, token =>
      (token.transferFrom rules spender owner recipient value).bind fun moved =>
        transfersFrom spender owner recipient values moved

variable {rules} {token next : Erc20 Account width} {spender owner recipient : Account}
  {value first second : BitVec width}

/-! ## Words -/

theorem toNat_add_of_fits (fits : first.toNat + second.toNat < 2 ^ width) :
    (first + second).toNat = first.toNat + second.toNat := by
  rw [BitVec.toNat_add, Nat.mod_eq_of_lt fits]

theorem sub_sub_word (word : BitVec width) : word - first - second = word - (first + second) := by
  rw [BitVec.sub_eq_add_neg, BitVec.sub_eq_add_neg, BitVec.sub_eq_add_neg, BitVec.neg_add,
    BitVec.sub_eq_add_neg, BitVec.add_assoc]

/-- A word covers a sum if it covers the first part, and what is left covers the
second. -/
theorem add_le_iff {word : BitVec width} (fits : first.toNat + second.toNat < 2 ^ width) :
    first + second ≤ word ↔ first ≤ word ∧ second ≤ word - first := by
  have sum := toNat_add_of_fits fits
  by_cases covered : first ≤ word
  · have left := BitVec.toNat_sub_of_le covered
    rw [BitVec.le_def] at covered
    simp only [BitVec.le_def]
    omega
  · rw [BitVec.le_def] at covered
    simp only [BitVec.le_def]
    omega

/-! ## The allowance -/

theorem spendAllowance_balances
    (spent : token.spendAllowance rules owner spender value = some next) :
    next.balances = token.balances := by
  rw [spendAllowance] at spent
  split at spent
  · cases spent
    rfl
  · split at spent
    · cases spent
      rfl
    · cases spent

theorem spend_spend :
    (token.spend owner spender first).spend owner spender second =
      token.spend owner spender (first + second) := by
  simp only [spend, Function.update_self, Function.update_idem, sub_sub_word]

theorem spend_allowance :
    (token.spend owner spender value).allowances owner spender =
      token.allowances owner spender - value := by
  simp only [spend, Function.update_self]

/-- What is left of a lower allowance is not the greatest one. -/
theorem not_unlimited_spend (limited : ¬ Unlimited rules owner spender token)
    (covered : value ≤ token.allowances owner spender) :
    ¬ Unlimited rules owner spender (token.spend owner spender value) := by
  rintro ⟨keeps, greatest⟩
  apply limited
  refine ⟨keeps, ?_⟩
  have left := congrArg BitVec.toNat greatest
  rw [spend_allowance, BitVec.toNat_sub_of_le covered, BitVec.toNat_allOnes] at left
  have bound := (token.allowances owner spender).isLt
  apply BitVec.eq_of_toNat_eq
  rw [BitVec.toNat_allOnes]
  omega

theorem spendAllowance_add (fits : first.toNat + second.toNat < 2 ^ width) :
    token.spendAllowance rules owner spender (first + second) =
      (token.spendAllowance rules owner spender first).bind
        (spendAllowance rules owner spender second) := by
  by_cases limited : Unlimited rules owner spender token
  · have kept : ∀ value, token.spendAllowance rules owner spender value = some token :=
      fun value => if_pos limited
    rw [kept, kept, Option.bind_some, kept]
  · rw [spendAllowance, spendAllowance, if_neg limited, if_neg limited]
    by_cases covered : first ≤ token.allowances owner spender
    · rw [if_pos covered, Option.bind_some, spendAllowance,
        if_neg (not_unlimited_spend limited covered), spend_spend, spend_allowance]
      apply if_congr _ rfl rfl
      rw [add_le_iff fits]
      exact and_iff_right covered
    · rw [if_neg covered, Option.bind_none, if_neg]
      rw [add_le_iff fits]
      exact fun both => covered both.1

/-! ## The balances -/

theorem transfer_eq_some_iff :
    token.transfer rules owner recipient value = some next ↔
      (rules.accepts owner ∧ rules.accepts recipient ∧ value ≤ token.balances owner) ∧
        token.move owner recipient value = next := by
  rw [transfer]
  split
  · rename_i accepted
    rw [Option.some.injEq]
    exact (and_iff_right accepted).symm
  · rename_i refused
    constructor
    · intro impossible
      cases impossible
    · intro moved
      exact absurd moved.1 refused

theorem move_self : token.move owner owner value = token := by
  simp only [move, Function.update_self, Function.update_idem, BitVec.sub_add_cancel,
    Function.update_eq_self]

theorem move_balance (other : recipient ≠ owner) :
    (token.move owner recipient value).balances owner = token.balances owner - value := by
  simp only [move, Function.update_of_ne other.symm, Function.update_self]

theorem move_move (other : recipient ≠ owner) :
    (token.move owner recipient first).move owner recipient second =
      token.move owner recipient (first + second) := by
  simp only [move, Erc20.mk.injEq, and_true]
  funext account
  by_cases isRecipient : account = recipient
  · subst isRecipient
    simp only [Function.update_self, Function.update_of_ne other, BitVec.add_assoc]
  · by_cases isOwner : account = owner
    · subst isOwner
      simp only [Function.update_self, Function.update_of_ne isRecipient, sub_sub_word]
    · simp only [Function.update_of_ne isRecipient, Function.update_of_ne isOwner]

/-- Two transfers are one of the sum, if the sum is there.  Only an owner who
pays itself can do without. -/
theorem transfer_add (fits : first.toNat + second.toNat < 2 ^ width) :
    token.transfer rules owner recipient (first + second) = some next ↔
      (token.transfer rules owner recipient first).bind
          (transfer rules owner recipient second) = some next ∧
        (recipient = owner → first + second ≤ token.balances owner) := by
  simp only [Option.bind_eq_some_iff, transfer_eq_some_iff]
  constructor
  · rintro ⟨⟨gives, takes, covered⟩, rfl⟩
    refine ⟨?_, fun _ => covered⟩
    obtain ⟨coversFirst, coversSecond⟩ := (add_le_iff fits).mp covered
    refine ⟨_, ⟨⟨gives, takes, coversFirst⟩, rfl⟩, ⟨gives, takes, ?_⟩, ?_⟩
    · by_cases self : recipient = owner
      · subst self
        rw [move_self]
        rw [BitVec.le_def, BitVec.toNat_sub_of_le coversFirst] at coversSecond
        rw [BitVec.le_def]
        omega
      · rw [move_balance self]
        exact coversSecond
    · by_cases self : recipient = owner
      · subst self
        rw [move_self, move_self, move_self]
      · exact move_move self
  · rintro ⟨⟨middle, ⟨⟨gives, takes, coversFirst⟩, rfl⟩, ⟨-, -, coversSecond⟩, rfl⟩, covered⟩
    by_cases self : recipient = owner
    · subst self
      refine ⟨⟨gives, takes, covered rfl⟩, ?_⟩
      rw [move_self, move_self, move_self]
    · rw [move_balance self] at coversSecond
      exact ⟨⟨gives, takes, (add_le_iff fits).mpr ⟨coversFirst, coversSecond⟩⟩, (move_move self).symm⟩

/-! ## Transfers on behalf of the owner -/

/-- Allowances and balances do not depend on each other. -/
theorem spendAllowance_transfer_comm :
    (token.transfer rules owner recipient first).bind
        (spendAllowance rules owner spender second) =
      (token.spendAllowance rules owner spender second).bind
        (transfer rules owner recipient first) := by
  rw [transfer, spendAllowance]
  split
  · rename_i paid
    rw [Option.bind_some, spendAllowance]
    change (if Unlimited rules owner spender token then _ else
      if second ≤ token.allowances owner spender then _ else _) = _
    split
    · rw [Option.bind_some, transfer, if_pos paid]
    · split
      · rw [Option.bind_some, transfer]
        exact (if_pos paid).symm
      · rfl
  · rename_i unpaid
    rw [Option.bind_none]
    split
    · rw [Option.bind_some, transfer, if_neg unpaid]
    · split
      · rw [Option.bind_some, transfer]
        exact (if_neg unpaid).symm
      · rfl

theorem transferFrom_add (fits : first.toNat + second.toNat < 2 ^ width) :
    token.transferFrom rules spender owner recipient (first + second) = some next ↔
      (token.transferFrom rules spender owner recipient first).bind
          (transferFrom rules spender owner recipient second) = some next ∧
        (recipient = owner → first + second ≤ token.balances owner) := by
  have reordered : (token.transferFrom rules spender owner recipient first).bind
      (transferFrom rules spender owner recipient second) =
        (token.spendAllowance rules owner spender (first + second)).bind fun spent =>
          (spent.transfer rules owner recipient first).bind
            (transfer rules owner recipient second) := by
    rw [spendAllowance_add fits, transferFrom, Option.bind_assoc, Option.bind_assoc]
    congr 1
    funext spent
    rw [← Option.bind_assoc, ← spendAllowance_transfer_comm, Option.bind_assoc]
    rfl
  rw [reordered, transferFrom]
  cases spending : token.spendAllowance rules owner spender (first + second) with
  | none => simp
  | some spent =>
      rw [Option.bind_some, Option.bind_some, transfer_add fits,
        spendAllowance_balances spending]

theorem transferFrom_self_balances
    (moved : token.transferFrom rules spender owner owner value = some next) :
    next.balances = token.balances := by
  obtain ⟨spent, spending, transferred⟩ := Option.bind_eq_some_iff.mp moved
  obtain ⟨-, rfl⟩ := transfer_eq_some_iff.mp transferred
  rw [move_self, spendAllowance_balances spending]

/-- One transfer of the total is the transfers one after another, if the total
is there. -/
theorem transferFrom_sum {values : List (BitVec width)} (some_value : values ≠ [])
    (fits : (values.map BitVec.toNat).sum < 2 ^ width) :
    token.transferFrom rules spender owner recipient
        (BitVec.ofNat width (values.map BitVec.toNat).sum) = some next ↔
      token.transfersFrom rules spender owner recipient values = some next ∧
        (recipient = owner →
          (values.map BitVec.toNat).sum ≤ (token.balances owner).toNat) := by
  induction values generalizing token with
  | nil => exact absurd rfl some_value
  | cons value values ih =>
      rw [List.map_cons, List.sum_cons] at fits ⊢
      rw [transfersFrom]
      cases values with
      | nil =>
          rw [List.map_nil, List.sum_nil, Nat.add_zero, BitVec.ofNat_toNat, BitVec.setWidth_eq]
          simp only [transfersFrom, Option.bind_fun_some]
          constructor
          · intro moved
            refine ⟨moved, ?_⟩
            rintro rfl
            obtain ⟨spent, spending, transferred⟩ := Option.bind_eq_some_iff.mp moved
            obtain ⟨⟨-, -, covered⟩, -⟩ := transfer_eq_some_iff.mp transferred
            rw [spendAllowance_balances spending] at covered
            exact covered
          · exact And.left
      | cons later others =>
          have rest : (BitVec.ofNat width
              ((later :: others).map BitVec.toNat).sum).toNat =
                ((later :: others).map BitVec.toNat).sum := by
            rw [BitVec.toNat_ofNat, Nat.mod_eq_of_lt]
            omega
          have split : BitVec.ofNat width (value.toNat +
              ((later :: others).map BitVec.toNat).sum) =
                value + BitVec.ofNat width ((later :: others).map BitVec.toNat).sum := by
            rw [BitVec.ofNat_add, BitVec.ofNat_toNat, BitVec.setWidth_eq]
          have partsFit : value.toNat + (BitVec.ofNat width
              ((later :: others).map BitVec.toNat).sum).toNat < 2 ^ width := by
            rw [rest]
            exact fits
          rw [split, transferFrom_add partsFit, BitVec.le_def, toNat_add_of_fits partsFit, rest]
          simp only [Option.bind_eq_some_iff]
          constructor
          · rintro ⟨⟨middle, paid, moved⟩, covered⟩
            refine ⟨⟨middle, paid, ?_⟩, covered⟩
            exact ((ih (List.cons_ne_nil _ _) (by omega)).mp moved).1
          · rintro ⟨⟨middle, paid, moved⟩, covered⟩
            refine ⟨⟨middle, paid, ?_⟩, covered⟩
            apply (ih (List.cons_ne_nil _ _) (by omega)).mpr
            refine ⟨moved, ?_⟩
            intro self
            have enough := covered self
            subst self
            rw [transferFrom_self_balances paid]
            omega

end Erc20

end AlignedLayer
