import Mathlib.Algebra.BigOperators.Group.Finset.Piecewise
import Mathlib.Algebra.Order.BigOperators.Group.Finset

/-!
# Reserves behind recorded balances

A reserve covers the balances recorded against it when no set of accounts has
more than the reserve holds.  Money that comes in may be credited to one
account or to none; money that goes out has to be debited.
-/

namespace AlignedLayer

variable {Account : Type} {reserve : Nat} {balances : Account → Nat}

def Covers (reserve : Nat) (balances : Account → Nat) : Prop :=
  ∀ accounts : Finset Account, ∑ account ∈ accounts, balances account ≤ reserve

namespace Covers

theorem of_zero (zero : ∀ account, balances account = 0) : Covers reserve balances := by
  intro accounts
  rw [Finset.sum_eq_zero fun account _ => zero account]
  exact Nat.zero_le reserve

theorem mono (covers : Covers reserve balances) {larger : Nat} (le : reserve ≤ larger) :
    Covers larger balances :=
  fun accounts => (covers accounts).trans le

variable [DecidableEq Account] {account : Account} {amount : Nat}

theorem credit (covers : Covers reserve balances) :
    Covers (reserve + amount)
      (Function.update balances account (balances account + amount)) := by
  intro accounts
  have before := covers accounts
  by_cases member : account ∈ accounts
  · rw [Finset.sum_update_of_mem member, Finset.sdiff_singleton_eq_erase]
    have split := Finset.add_sum_erase accounts balances member
    omega
  · rw [Finset.sum_update_of_notMem member]
    omega

theorem debit (covers : Covers reserve balances) (enough : amount ≤ balances account) :
    Covers (reserve - amount)
      (Function.update balances account (balances account - amount)) := by
  intro accounts
  by_cases member : account ∈ accounts
  · have before := covers accounts
    rw [Finset.sum_update_of_mem member, Finset.sdiff_singleton_eq_erase]
    have split := Finset.add_sum_erase accounts balances member
    omega
  · have before := covers (insert account accounts)
    rw [Finset.sum_insert member] at before
    rw [Finset.sum_update_of_notMem member]
    omega

end Covers

end AlignedLayer
