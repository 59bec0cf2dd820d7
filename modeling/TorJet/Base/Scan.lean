import Mathlib.Data.Option.Basic

/-!
# Scanning indices

The first index from a place on, and the last index up to a place, that meets a condition.
-/

namespace TorJet.Base

/-- The first of the `left` indices from `i` on that meets the condition. -/
def scanUp (p : Nat → Bool) : Nat → Nat → Option Nat
  | 0, _ => none
  | left + 1, i => if p i then some i else scanUp p left (i + 1)

def scanDown (p : Nat → Bool) : Nat → Option Nat
  | 0 => none
  | i + 1 => if p i then some i else scanDown p i

section Scan
variable {p q : Nat → Bool} {left i j : Nat}

theorem scanUp_eq_none : scanUp p left i = none ↔ ∀ k, i ≤ k → k < i + left → p k = false := by
  induction left generalizing i with
  | zero =>
      simp only [scanUp, Nat.add_zero, true_iff]
      intro k le lt
      omega
  | succ left ih =>
      rw [scanUp]
      split
      · rename_i here
        simp only [reduceCtorEq, false_iff, not_forall]
        exact ⟨i, Nat.le_refl i, by omega, by simp [here]⟩
      · rename_i here
        rw [ih]
        constructor
        · intro later k le lt
          rcases Nat.eq_or_lt_of_le le with rfl | above
          · exact Bool.eq_false_iff.mpr here
          · exact later k above (by omega)
        · intro all k le lt
          exact all k (by omega) (by omega)

theorem scanUp_eq_some :
    scanUp p left i = some j ↔ i ≤ j ∧ j < i + left ∧ p j = true ∧ ∀ k, i ≤ k → k < j → p k = false := by
  induction left generalizing i with
  | zero =>
      simp only [scanUp, reduceCtorEq, Nat.add_zero, false_iff]
      omega
  | succ left ih =>
      rw [scanUp]
      split
      · rename_i here
        rw [Option.some.injEq]
        constructor
        · rintro rfl
          exact ⟨Nat.le_refl i, by omega, here, by omega⟩
        · rintro ⟨le, -, -, first⟩
          by_contra other
          have before := first i (Nat.le_refl i) (by omega)
          rw [here] at before
          cases before
      · rename_i here
        rw [ih]
        constructor
        · rintro ⟨le, lt, holds, first⟩
          refine ⟨by omega, by omega, holds, ?_⟩
          intro k le' lt'
          rcases Nat.eq_or_lt_of_le le' with rfl | above
          · exact Bool.eq_false_iff.mpr here
          · exact first k above lt'
        · rintro ⟨le, lt, holds, first⟩
          have other : i ≠ j := by
            rintro rfl
            exact here holds
          exact ⟨by omega, by omega, holds, fun k le' lt' => first k (by omega) lt'⟩

theorem scanDown_eq_none : scanDown p i = none ↔ ∀ k, k < i → p k = false := by
  induction i with
  | zero => simp [scanDown]
  | succ i ih =>
      rw [scanDown]
      split
      · rename_i here
        simp only [reduceCtorEq, false_iff, not_forall]
        exact ⟨i, by omega, by simp [here]⟩
      · rename_i here
        rw [ih]
        constructor
        · intro below k lt
          rcases Nat.lt_succ_iff_lt_or_eq.mp lt with lt | rfl
          · exact below k lt
          · exact Bool.eq_false_iff.mpr here
        · intro all k lt
          exact all k (by omega)

theorem scanDown_eq_some :
    scanDown p i = some j ↔ j < i ∧ p j = true ∧ ∀ k, j < k → k < i → p k = false := by
  induction i with
  | zero => simp [scanDown]
  | succ i ih =>
      rw [scanDown]
      split
      · rename_i here
        rw [Option.some.injEq]
        constructor
        · rintro rfl
          exact ⟨by omega, here, by omega⟩
        · rintro ⟨lt, -, last⟩
          by_contra other
          have after := last i (by omega) (by omega)
          rw [here] at after
          cases after
      · rename_i here
        rw [ih]
        constructor
        · rintro ⟨lt, holds, last⟩
          refine ⟨by omega, holds, ?_⟩
          intro k lt' le
          rcases Nat.lt_succ_iff_lt_or_eq.mp le with below | rfl
          · exact last k lt' below
          · exact Bool.eq_false_iff.mpr here
        · rintro ⟨lt, holds, last⟩
          have other : i ≠ j := by
            rintro rfl
            exact here holds
          exact ⟨by omega, holds, fun k lt' le => last k lt' (by omega)⟩

end Scan
end TorJet.Base
