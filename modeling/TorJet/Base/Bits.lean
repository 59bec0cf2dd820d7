import Mathlib.Algebra.Group.Nat.Defs
import Mathlib.Data.List.Basic
import Mathlib.Data.Nat.Init

/-!
# Bits of a word

The lowest bit of a word that is set, and words whose set bits are a range.
-/

namespace TorJet.Base.Bits
variable {w : Nat} {x : BitVec w} {i : Nat}

def lowest (x : BitVec w) : Option Nat := (List.range w).find? fun i => x.getLsbD i

/-- The word with the bits from `low` to `high`. -/
def range (w low high : Nat) : BitVec w := BitVec.allOnes w <<< (w - 1 - high) >>> (w - 1 - high + low) <<< low

theorem lowest_eq_none : lowest x = none ↔ x = 0 := by
  rw [lowest, List.find?_eq_none]
  constructor
  · intro clear
    apply BitVec.eq_of_getLsbD_eq
    intro i inside
    rw [BitVec.ofNat_eq_ofNat, BitVec.getLsbD_zero]
    exact Bool.eq_false_iff.mpr (clear i (List.mem_range.mpr inside))
  · rintro rfl i -
    simp

theorem lowest_spec (here : lowest x = some i) : i < w ∧ x.getLsbD i = true ∧ ∀ j < i, x.getLsbD j = false := by
  obtain ⟨set, before, after, split, clear⟩ := List.find?_eq_some_iff_append.mp here
  have place : before.length = i := by
    have get : (List.range w)[before.length]? = some i := by rw [split]; simp
    rw [List.getElem?_range] at get
    · exact Option.some.inj get
    · have := congrArg List.length split
      simp at this
      omega
  have inside : i < w := List.mem_range.mp (List.mem_of_find?_eq_some here)
  refine ⟨inside, set, fun j below => ?_⟩
  have mem : j ∈ before := by
    have get : (List.range w)[j]? = before[j]? := by rw [split, List.getElem?_append_left (by omega)]
    rw [List.getElem?_range (by omega)] at get
    exact List.mem_of_getElem? get.symm
  simpa using clear j mem

theorem and_ne_zero {y : BitVec w} : x &&& y ≠ 0 ↔ ∃ i, x.getLsbD i = true ∧ y.getLsbD i = true := by
  rw [← not_iff_not, not_not]
  constructor
  · rintro clear ⟨i, inX, inY⟩
    have off : (x &&& y).getLsbD i = false := by rw [clear]; simp
    rw [BitVec.getLsbD_and, inX, inY] at off
    cases off
  · intro none
    apply BitVec.eq_of_getLsbD_eq
    intro i _
    rw [BitVec.getLsbD_and, BitVec.ofNat_eq_ofNat, BitVec.getLsbD_zero]
    cases set : x.getLsbD i with
    | false => rfl
    | true => exact Bool.eq_false_iff.mpr fun both => none ⟨i, set, both⟩

theorem getLsbD_shifted_one (small : i < w) (j : Nat) : (1#w <<< i).getLsbD j = decide (j = i) := by
  rw [BitVec.getLsbD_shiftLeft, BitVec.getLsbD_one, Bool.eq_iff_iff]
  simp only [Bool.and_eq_true, Bool.not_eq_true', decide_eq_true_eq, decide_eq_false_iff_not]
  omega

theorem and_shifted_one_ne_zero (small : i < w) : x &&& 1#w <<< i ≠ 0 ↔ x.getLsbD i = true := by
  rw [and_ne_zero]
  constructor
  · rintro ⟨j, inX, there⟩
    rw [getLsbD_shifted_one small, decide_eq_true_eq] at there
    rwa [← there]
  · intro set
    exact ⟨i, set, by rw [getLsbD_shifted_one small, decide_eq_true rfl]⟩

theorem getLsbD_range {low high : Nat} (fits : high < w) :
    (range w low high).getLsbD i = (decide (low ≤ i) && decide (i ≤ high)) := by
  simp only [range, BitVec.getLsbD_shiftLeft, BitVec.getLsbD_ushiftRight, BitVec.getLsbD_allOnes]
  rw [Bool.eq_iff_iff]
  simp only [Bool.and_eq_true, Bool.not_eq_true', decide_eq_true_eq, decide_eq_false_iff_not]
  omega

end TorJet.Base.Bits

/-!
## Unsigned words

Arithmetic on natural numbers as an unsigned type of `w` bits does it.
-/

namespace TorJet.Base

def wrap (w n : Nat) : Nat := n % 2 ^ w

def wsub (w a b : Nat) : Nat := wrap w (a + (2 ^ w - wrap w b))

section Word
variable {w a b n : Nat}

theorem wrap_lt : wrap w n < 2 ^ w := Nat.mod_lt _ (Nat.two_pow_pos w)

theorem wrap_le : wrap w n ≤ n := Nat.mod_le _ _

theorem wrap_of_lt (h : n < 2 ^ w) : wrap w n = n := Nat.mod_eq_of_lt h

theorem wsub_of_le (le : b ≤ a) (fits : a < 2 ^ w) : wsub w a b = a - b := by
  have small : wrap w b = b := wrap_of_lt (by omega)
  unfold wsub wrap at *
  rw [small, show a + (2 ^ w - b) = (a - b) + 2 ^ w by omega, Nat.add_mod_right]
  exact Nat.mod_eq_of_lt (by omega)

end Word

def clampTo (lo hi : Nat) (n : Int) : Nat := if n < lo then lo else if hi < n then hi else n.toNat

theorem clampTo_range {lo hi : Nat} {n : Int} (le : lo ≤ hi) : lo ≤ clampTo lo hi n ∧ clampTo lo hi n ≤ hi := by
  unfold clampTo
  split
  · exact ⟨Nat.le_refl _, le⟩
  · split
    · exact ⟨le, Nat.le_refl _⟩
    · omega

end TorJet.Base
