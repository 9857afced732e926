import Mathlib.Algebra.BigOperators.Group.Finset.Basic
import Mathlib.Algebra.Order.BigOperators.Group.Finset
import Mathlib.Algebra.Order.Ring.Nat

/-!
# Quorums by weight

Members have weights, and a quorum is a set of members with a given share of
the whole weight.  As long as the faulty members have less than this share,
every quorum has a member that is not faulty.
-/

namespace AlignedLayer

/-- A quorum has `numerator` parts of `denominator` of the weight. -/
structure Quorums (Member : Type) where
  members : Finset Member
  weight : Member → Nat
  numerator : Nat
  denominator : Nat

namespace Quorums

variable {Member : Type}

def total (quorums : Quorums Member) (voters : Finset Member) : Nat :=
  ∑ voter ∈ voters, quorums.weight voter

structure IsQuorum (quorums : Quorums Member) (voters : Finset Member) : Prop where
  members : voters ⊆ quorums.members
  share : quorums.total quorums.members * quorums.numerator ≤
    quorums.total voters * quorums.denominator

/-- The faulty members are no quorum. -/
def Tolerates [DecidableEq Member] (quorums : Quorums Member) (faulty : Finset Member) : Prop :=
  quorums.total (quorums.members ∩ faulty) * quorums.denominator <
    quorums.total quorums.members * quorums.numerator

variable {quorums : Quorums Member}

theorem total_mono {fewer more : Finset Member} (subset : fewer ⊆ more) :
    quorums.total fewer ≤ quorums.total more :=
  Finset.sum_le_sum_of_subset subset

theorem exists_correct [DecidableEq Member] {voters faulty : Finset Member}
    (quorum : quorums.IsQuorum voters) (tolerates : quorums.Tolerates faulty) :
    ∃ voter ∈ voters, voter ∉ faulty := by
  by_contra allFaulty
  have subset : voters ⊆ quorums.members ∩ faulty := by
    intro voter isVoter
    refine Finset.mem_inter.mpr ⟨quorum.members isVoter, ?_⟩
    by_contra correct
    exact allFaulty ⟨voter, isVoter, correct⟩
  have few : quorums.total voters * quorums.denominator ≤
      quorums.total (quorums.members ∩ faulty) * quorums.denominator :=
    Nat.mul_le_mul_right _ (total_mono subset)
  exact absurd (quorum.share.trans few) (Nat.not_le.mpr tolerates)

end Quorums

end AlignedLayer
