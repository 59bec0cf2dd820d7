import Mathlib.Tactic.ByContra
import Mathlib.Data.Int.Init

/-!
# Quotients that are cut off

What is known of a quotient of integers that is rounded towards zero, by a positive divisor.
-/

namespace TorJet.Base
variable {a b c : Int}

theorem tdiv_between (a : Int) (positive : 0 < b) : b * a.tdiv b < a + b ∧ a < b * a.tdiv b + b := by
  have whole := Int.mul_tdiv_add_tmod a b
  have above := Int.tmod_lt_of_pos a positive
  have below := Int.lt_tmod_of_pos a positive
  omega

theorem tdiv_of_nonneg (nonneg : 0 ≤ a) (positive : 0 < b) : 0 ≤ a.tdiv b ∧ b * a.tdiv b ≤ a := by
  refine ⟨Int.tdiv_nonneg nonneg (Int.le_of_lt positive), ?_⟩
  have whole := Int.mul_tdiv_add_tmod a b
  have rest := Int.tmod_nonneg b nonneg
  omega

theorem tdiv_of_nonpos (nonpos : a ≤ 0) (positive : 0 < b) : a.tdiv b ≤ 0 ∧ a ≤ b * a.tdiv b := by
  have opposite := tdiv_of_nonneg (Int.neg_nonneg_of_nonpos nonpos) positive
  rw [Int.neg_tdiv, Int.mul_neg] at opposite
  omega

theorem tdiv_le (nonneg : 0 ≤ a) (positive : 0 < b) (le : a ≤ b * c) : a.tdiv b ≤ c := by
  have quotient := (tdiv_of_nonneg nonneg positive).2
  exact Int.le_of_mul_le_mul_left (Int.le_trans quotient le) positive

theorem tdiv_nonneg_iff (positive : 0 < b) : 0 ≤ a.tdiv b ↔ -b < a := by
  constructor
  · intro nonneg
    have above := (tdiv_between a positive).1
    have product := Int.mul_nonneg (Int.le_of_lt positive) nonneg
    omega
  · intro above
    rcases Int.le_total 0 a with nonneg | nonpos
    · exact (tdiv_of_nonneg nonneg positive).1
    · have lower := (tdiv_of_nonpos nonpos positive).2
      by_contra negative
      have product := Int.mul_le_mul_of_nonneg_left (show a.tdiv b ≤ -1 by omega) (Int.le_of_lt positive)
      omega

theorem tdiv_le_iff (positive : 0 < b) (nonneg : 0 ≤ c) : a.tdiv b ≤ c ↔ a < b * (c + 1) := by
  have distrib : b * (c + 1) = b * c + b := by rw [Int.mul_add, Int.mul_one]
  constructor
  · intro le
    have below := (tdiv_between a positive).2
    have product := Int.mul_le_mul_of_nonneg_left le (Int.le_of_lt positive)
    omega
  · intro lt
    rcases Int.le_total 0 a with above | nonpos
    · have quotient := (tdiv_of_nonneg above positive).2
      by_contra more
      have product := Int.mul_le_mul_of_nonneg_left (show c + 1 ≤ a.tdiv b by omega) (Int.le_of_lt positive)
      omega
    · exact Int.le_trans (tdiv_of_nonpos nonpos positive).1 nonneg

end TorJet.Base
