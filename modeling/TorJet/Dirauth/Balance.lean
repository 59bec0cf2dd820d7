import Mathlib.Algebra.BigOperators.Group.List.Basic
import Mathlib.Algebra.Order.Ring.Abs
import Mathlib.Tactic.Linarith
import Mathlib.Tactic.Ring
import TorJet.Base.Quotient
import TorJet.Dirauth.Bwweights

/-!
# The weights are balanced fractions

Each case of the weights, with the region of totals in which it passes its check.
-/

namespace TorJet.Dirauth
open Base

structure Fractions (s : Int) (w : Weights) : Prop where
  inside : rangeCheck w s = true
  guards : |w.wgg + w.wmg - s| ≤ 10
  exits : |w.wee + w.wme - s| ≤ 10
  both : |w.wgd + w.wmd + w.wed - s| ≤ 10

def EgBalanced (w : Weights) (G E D T : Int) : Prop :=
  checkEq (w.wgg * G + w.wgd * D) (w.wee * E + w.wed * D) ((10 * T).tdiv 3) = true

def MidBalanced (w : Weights) (s G M E D T : Int) : Prop :=
  checkEq (w.wgg * G + w.wgd * D) (M * s + w.wmd * D + w.wme * E + w.wmg * G) ((10 * T).tdiv 3) = true

section Check
variable {w : Weights} {s G M E D T a b margin : Int}

theorem checkEq_iff (nonneg : 0 ≤ margin) : checkEq a b margin = true ↔ |a - b| ≤ margin := by
  rw [checkEq, abs_le]
  split <;> rw [decide_eq_true_eq] <;> omega

theorem rangeCheck_iff : rangeCheck w s = true ↔ (0 ≤ w.wgg ∧ w.wgg ≤ s) ∧ (0 ≤ w.wgd ∧ w.wgd ≤ s) ∧
    (0 ≤ w.wmg ∧ w.wmg ≤ s) ∧ (0 ≤ w.wme ∧ w.wme ≤ s) ∧ (0 ≤ w.wmd ∧ w.wmd ≤ s) ∧ (0 ≤ w.wed ∧ w.wed ≤ s) ∧
    0 ≤ w.wee ∧ w.wee ≤ s := by
  simp [rangeCheck]

theorem fractions_iff : Fractions s w ↔ ((0 ≤ w.wgg ∧ w.wgg ≤ s) ∧ (0 ≤ w.wgd ∧ w.wgd ≤ s) ∧
    (0 ≤ w.wmg ∧ w.wmg ≤ s) ∧ (0 ≤ w.wme ∧ w.wme ≤ s) ∧ (0 ≤ w.wmd ∧ w.wmd ≤ s) ∧ (0 ≤ w.wed ∧ w.wed ≤ s) ∧
    0 ≤ w.wee ∧ w.wee ≤ s) ∧ (-10 ≤ w.wgg + w.wmg - s ∧ w.wgg + w.wmg - s ≤ 10) ∧
    (-10 ≤ w.wee + w.wme - s ∧ w.wee + w.wme - s ≤ 10) ∧
    (-10 ≤ w.wgd + w.wmd + w.wed - s ∧ w.wgd + w.wmd + w.wed - s ≤ 10) := by
  rw [← rangeCheck_iff, ← abs_le, ← abs_le, ← abs_le]
  exact ⟨fun h => ⟨h.inside, h.guards, h.exits, h.both⟩, fun h => ⟨h.1, h.2.1, h.2.2.1, h.2.2.2⟩⟩

theorem check_fractions : (checkEq (w.wed + w.wmd + w.wgd) s 10 = true ∧ checkEq (w.wmg + w.wgg) s 10 = true ∧
    checkEq (w.wme + w.wee) s 10 = true ∧ rangeCheck w s = true) ↔ Fractions s w := by
  rw [checkEq_iff (by decide), checkEq_iff (by decide), checkEq_iff (by decide)]
  constructor
  · rintro ⟨both, guards, exits, inside⟩
    refine ⟨inside, ?_, ?_, ?_⟩
    · rwa [Int.add_comm w.wgg]
    · rwa [Int.add_comm w.wee]
    · rwa [show w.wgd + w.wmd + w.wed = w.wed + w.wmd + w.wgd by omega]
  · rintro ⟨inside, guards, exits, both⟩
    refine ⟨?_, ?_, ?_, inside⟩
    · rwa [show w.wed + w.wmd + w.wgd = w.wgd + w.wmd + w.wed by omega]
    · rwa [Int.add_comm w.wmg]
    · rwa [Int.add_comm w.wme]

theorem check_mid_iff : ¬ (networkstatusCheckWeights w s G M E D T 10 true ≠ .noError ∧
    networkstatusCheckWeights w s G M E D T 10 true ≠ .balanceMidError) ↔ Fractions s w ∧ EgBalanced w G E D T := by
  rw [← check_fractions, networkstatusCheckWeights, EgBalanced]
  generalize checkEq (w.wed + w.wmd + w.wgd) s 10 = both
  generalize checkEq (w.wmg + w.wgg) s 10 = guards
  generalize checkEq (w.wme + w.wee) s 10 = exits
  generalize rangeCheck w s = inside
  generalize checkEq (w.wgg * G + w.wgd * D) (w.wee * E + w.wed * D) ((10 * T).tdiv 3) = eg
  generalize checkEq (w.wgg * G + w.wgd * D) (M * s + w.wmd * D + w.wme * E + w.wmg * G) ((10 * T).tdiv 3) = mid
  revert both guards exits inside eg mid
  decide

theorem check_iff : networkstatusCheckWeights w s G M E D T 10 true = .noError ↔
    Fractions s w ∧ EgBalanced w G E D T ∧ MidBalanced w s G M E D T := by
  rw [← check_fractions, networkstatusCheckWeights, EgBalanced, MidBalanced]
  generalize checkEq (w.wed + w.wmd + w.wgd) s 10 = both
  generalize checkEq (w.wmg + w.wgg) s 10 = guards
  generalize checkEq (w.wme + w.wee) s 10 = exits
  generalize rangeCheck w s = inside
  generalize checkEq (w.wgg * G + w.wgd * D) (w.wee * E + w.wed * D) ((10 * T).tdiv 3) = eg
  generalize checkEq (w.wgg * G + w.wgd * D) (M * s + w.wmd * D + w.wme * E + w.wmg * G) ((10 * T).tdiv 3) = mid
  revert both guards exits inside eg mid
  decide

theorem checkEq_of_near (four : 4 ≤ T) (near : |a - b| ≤ 3 * T) : checkEq a b ((10 * T).tdiv 3) = true := by
  have bounds := tdiv_of_nonneg (show 0 ≤ 10 * T by omega) (show (0 : Int) < 3 by omega)
  have below := (tdiv_between (10 * T) (show (0 : Int) < 3 by omega)).2
  rw [checkEq_iff bounds.1]
  omega

end Check

section Cases
variable {G M E D T s : Int} (guards : 0 < G) (middles : 0 < M) (exits : 0 < E) (both : 0 < D)
  (total : T = G + M + E + D) (scale : 10 ≤ s)
include guards middles exits both total scale

theorem case1_checked (exitsPlenty : 3 * E ≥ T) (guardsPlenty : 3 * G ≥ T) :
    networkstatusCheckWeights (case1 G M E s) s G M E D T 10 true = .noError := by
  have third := tdiv_of_nonneg (show 0 ≤ s by omega) (show (0 : Int) < 3 by omega)
  have third' := (tdiv_between s (show (0 : Int) < 3 by omega)).2
  have eeNonneg : 0 ≤ s * (E + G + M) := by positivity
  have mgNonneg : 0 ≤ s * (2 * G - E - M) := Int.mul_nonneg (by omega) (by omega)
  have ee := tdiv_of_nonneg eeNonneg (show 0 < 3 * E by omega)
  have ee' := (tdiv_between (s * (E + G + M)) (show 0 < 3 * E by omega)).2
  have mg := tdiv_of_nonneg mgNonneg (show 0 < 3 * G by omega)
  have mg' := (tdiv_between (s * (2 * G - E - M)) (show 0 < 3 * G by omega)).2
  have eeTop : (s * (E + G + M)).tdiv (3 * E) ≤ s := by
    refine tdiv_le eeNonneg (by omega) ?_
    rw [Int.mul_comm]
    exact Int.mul_le_mul_of_nonneg_right (by omega) (by omega)
  have mgTop : (s * (2 * G - E - M)).tdiv (3 * G) ≤ s := by
    refine tdiv_le mgNonneg (by omega) ?_
    rw [Int.mul_comm]
    exact Int.mul_le_mul_of_nonneg_right (by omega) (by omega)
  rw [check_iff]
  refine ⟨?_, ?_, ?_⟩
  · rw [fractions_iff]
    simp only [case1]
    omega
  · refine checkEq_of_near (by omega) ?_
    simp only [case1, abs_le]
    constructor <;> linarith
  · refine checkEq_of_near (by omega) ?_
    simp only [case1, abs_le]
    constructor <;> linarith

omit guards middles exits both total in
theorem case2a_fractions : Fractions s (case2a G E s) := by
  rw [fractions_iff, case2a]
  split <;> simp only <;> omega

omit both total in
theorem case3a_fractions : Fractions s (case3a G M E s) := by
  have half : ∀ a b : Int, 0 < a → 0 < b → b ≤ a →
      0 ≤ (s * (a - b)).tdiv (2 * a) ∧ (s * (a - b)).tdiv (2 * a) ≤ s := by
    intro a b apos bpos le
    have nonneg : 0 ≤ s * (a - b) := Int.mul_nonneg (by omega) (by omega)
    refine ⟨(tdiv_of_nonneg nonneg (by omega)).1, tdiv_le nonneg (by omega) ?_⟩
    rw [Int.mul_comm s]
    exact Int.mul_le_mul_of_nonneg_right (by omega) (by omega)
  rw [case3a]
  split
  · by_cases less : E < M
    · rw [if_pos less]
      rw [fractions_iff]
      simp only
      omega
    · rw [if_neg less]
      have bounds := half E M exits middles (by omega)
      rw [fractions_iff]
      simp only
      omega
  · by_cases less : G < M
    · rw [if_pos less]
      rw [fractions_iff]
      simp only
      omega
    · rw [if_neg less]
      have bounds := half G M guards middles (by omega)
      rw [fractions_iff]
      simp only
      omega

omit guards middles exits both total in
theorem scarce_shares {a b m d t : Int} (apos : 0 < a) (mpos : 0 < m) (bpos : 0 < b) (dpos : 0 < d)
    (sum : t = a + m + b + d) (scarce : 3 * a < t) (plenty : 3 * b ≥ t) (enough : ¬ 3 * (a + d) < t) {x y h : Int}
    (xIs : x = (s * (d - 2 * a + b + m)).tdiv (3 * d)) (yIs : y = (s * (b + m)).tdiv (2 * b)) (hIs : h = (s - x).tdiv 2) :
    (0 ≤ x ∧ x ≤ s) ∧ (0 ≤ y ∧ y ≤ s) ∧ 0 ≤ h ∧ (x + 2 * h ≤ s ∧ s ≤ x + 2 * h + 1) ∧
      |s * a + x * d - (y * b + h * d)| ≤ 3 * t ∧ |s * a + x * d - (m * s + h * d + (s - y) * b)| ≤ 3 * t ∧
      |y * b + h * d - (m * s + h * d + (s - y) * b)| ≤ 3 * t := by
  have xNonneg : 0 ≤ s * (d - 2 * a + b + m) := Int.mul_nonneg (by omega) (by omega)
  have yNonneg : 0 ≤ s * (b + m) := Int.mul_nonneg (by omega) (by omega)
  have xBounds := tdiv_of_nonneg xNonneg (show 0 < 3 * d by omega)
  have xRest := (tdiv_between (s * (d - 2 * a + b + m)) (show 0 < 3 * d by omega)).2
  have yBounds := tdiv_of_nonneg yNonneg (show 0 < 2 * b by omega)
  have yRest := (tdiv_between (s * (b + m)) (show 0 < 2 * b by omega)).2
  have xTop : (s * (d - 2 * a + b + m)).tdiv (3 * d) ≤ s := by
    refine tdiv_le xNonneg (by omega) ?_
    rw [Int.mul_comm s]
    exact Int.mul_le_mul_of_nonneg_right (by omega) (by omega)
  have yTop : (s * (b + m)).tdiv (2 * b) ≤ s := by
    refine tdiv_le yNonneg (by omega) ?_
    rw [Int.mul_comm s]
    exact Int.mul_le_mul_of_nonneg_right (by omega) (by omega)
  rw [← xIs] at xBounds xRest xTop
  rw [← yIs] at yBounds yRest yTop
  have hBounds := tdiv_of_nonneg (show 0 ≤ s - x by omega) (show (0 : Int) < 2 by decide)
  have hRest := (tdiv_between (s - x) (show (0 : Int) < 2 by decide)).2
  rw [← hIs] at hBounds hRest
  have hLow := Int.mul_le_mul_of_nonneg_right hBounds.2 dpos.le
  have hHigh := Int.mul_le_mul_of_nonneg_right hRest.le dpos.le
  refine ⟨⟨xBounds.1, xTop⟩, ⟨yBounds.1, yTop⟩, hBounds.1, ⟨by omega, by omega⟩, ?_, ?_, ?_⟩
  · rw [abs_le]
    constructor <;> linarith
  · rw [abs_le]
    constructor <;> linarith
  · rw [abs_le]
    constructor <;> linarith

theorem case3b_checked (notBoth : ¬ (3 * E < T ∧ 3 * G < T)) (notNeither : ¬ (3 * E ≥ T ∧ 3 * G ≥ T))
    (enough : ¬ 3 * (min E G + D) < T) :
    networkstatusCheckWeights (case3b G M E D s) s G M E D T 10 true = .noError := by
  rw [case3b]
  split
  · rename_i less
    rw [Int.min_eq_right (by omega)] at enough
    obtain ⟨x, y, h, sum, eg, mid, -⟩ := scarce_shares scale guards middles exits both total (by omega) (by omega) enough
      rfl rfl rfl
    rw [check_iff]
    refine ⟨?_, checkEq_of_near (by omega) eg, checkEq_of_near (by omega) ?_⟩
    · rw [fractions_iff]
      simp only
      omega
    · simpa using mid
  · rename_i less
    rw [Int.min_eq_left (by omega)] at enough
    obtain ⟨x, y, h, sum, eg, -, mid⟩ := scarce_shares scale exits middles guards both (by omega) (by omega) (by omega)
      enough rfl rfl rfl
    rw [check_iff]
    refine ⟨?_, checkEq_of_near (by omega) ?_, checkEq_of_near (by omega) ?_⟩
    · rw [fractions_iff]
      simp only
      omega
    · rw [abs_sub_comm]
      exact eg
    · simpa using mid

def SecondTry (G M E D T s : Int) : Prop :=
  s * (D - 2 * E + G + M) < 3 * D * (s + 1) ∧
    3 * (2 * (D * (s * (D - 2 * E + G + M)).tdiv (3 * D)) - s * (G + D - E)) ≤ 10 * T

def FirstTry (G M E D s : Int) : Prop :=
  s * (M - G) < E ∧ -(3 * D) < s * (D - 2 * E + 4 * G - 2 * M) ∧
    s * (D - 2 * E + 4 * G - 2 * M) < 3 * D * (s + 1)

section Both
variable (exitsScarce : 3 * E < T) (guardsScarce : 3 * G < T)
include exitsScarce guardsScarce

theorem case2b2_uncrowded (uncrowded : s * (3 * M - T) < 3 * D) :
    Fractions s (case2b2 G M E D s) ∧ EgBalanced (case2b2 G M E D s) G E D T := by
  have scaled : s * T = s * G + s * M + s * E + s * D := by rw [total]; ring
  have divisor : 0 < 3 * D := by omega
  have edNonneg : 0 ≤ s * (D - 2 * E + G + M) := Int.mul_nonneg (by omega) (by omega)
  have ed := tdiv_of_nonneg edNonneg divisor
  have edRest := (tdiv_between (s * (D - 2 * E + G + M)) divisor).2
  have md : 0 ≤ (s * (D - 2 * M + G + E)).tdiv (3 * D) := by
    rw [tdiv_nonneg_iff divisor]
    have same : s * (D - 2 * M + G + E) = -(s * (3 * M - T)) := by
      rw [total, ← Int.mul_neg]
      congr 1
      omega
    omega
  have mdRest := tdiv_between (s * (D - 2 * M + G + E)) divisor
  have room : (s * (D - 2 * E + G + M)).tdiv (3 * D) + (s * (D - 2 * M + G + E)).tdiv (3 * D) ≤ s := by
    have guardRoom : 0 < s * (T - 3 * G) := Int.mul_pos (by omega) (by omega)
    rcases Int.le_total 0 (s * (D - 2 * M + G + E)) with nonneg | nonpos
    · have mdTop := (tdiv_of_nonneg nonneg divisor).2
      refine Int.le_of_mul_le_mul_left (a := 3 * D) ?_ divisor
      linarith
    · have mdZero := (tdiv_of_nonpos nonpos divisor).1
      have edTop : (s * (D - 2 * E + G + M)).tdiv (3 * D) ≤ s := by
        rw [tdiv_le_iff divisor (by omega)]
        linarith
      omega
  rw [case2b2, if_neg (by omega)]
  generalize (s * (D - 2 * E + G + M)).tdiv (3 * D) = wed at *
  generalize (s * (D - 2 * M + G + E)).tdiv (3 * D) = wmd at *
  constructor
  · rw [fractions_iff]
    simp only
    omega
  · refine checkEq_of_near (by omega) ?_
    simp only [abs_le]
    constructor <;> linarith

theorem case2b2_crowded (crowded : 3 * D ≤ s * (3 * M - T)) :
    Fractions s (case2b2 G M E D s) ∧ EgBalanced (case2b2 G M E D s) G E D T ↔ SecondTry G M E D T s := by
  have scaled : s * T = s * G + s * M + s * E + s * D := by rw [total]; ring
  have divisor : 0 < 3 * D := by omega
  have edNonneg : 0 ≤ s * (D - 2 * E + G + M) := Int.mul_nonneg (by omega) (by omega)
  have ed := tdiv_of_nonneg edNonneg divisor
  have edRest := (tdiv_between (s * (D - 2 * E + G + M)) divisor).2
  have md : (s * (D - 2 * M + G + E)).tdiv (3 * D) < 0 := by
    rw [← Int.not_le, tdiv_nonneg_iff divisor]
    have same : s * (D - 2 * M + G + E) = -(s * (3 * M - T)) := by
      rw [total, ← Int.mul_neg]
      congr 1
      omega
    omega
  have third := tdiv_of_nonneg (show 0 ≤ 10 * T by omega) (show (0 : Int) < 3 by decide)
  have thirdRest := (tdiv_between (10 * T) (show (0 : Int) < 3 by decide)).2
  rw [case2b2, if_pos md, SecondTry, ← tdiv_le_iff divisor (show 0 ≤ s by omega), EgBalanced, checkEq_iff third.1,
    fractions_iff]
  generalize (s * (D - 2 * E + G + M)).tdiv (3 * D) = wed at *
  simp only [abs_le]
  constructor
  · rintro ⟨fractions, below, -⟩
    exact ⟨by omega, by linarith⟩
  · rintro ⟨top, balanced⟩
    refine ⟨by omega, by linarith, by linarith⟩

omit middles in
theorem case2b1_crowded (crowded : 3 * D ≤ s * (3 * M - T)) :
    networkstatusCheckWeights (case2b1 G M E D s) s G M E D T 10 true = .noError ↔ FirstTry G M E D s := by
  have scaled : s * T = s * G + s * M + s * E + s * D := by rw [total]; ring
  have divisor : 0 < 3 * D := by omega
  have more : G < M := by
    have positive : 0 < s * (3 * M - T) := by omega
    have above := (mul_pos_iff_of_pos_left (show 0 < s by omega)).mp positive
    omega
  have gapPos : 0 < s * (M - G) := Int.mul_pos (by omega) (by omega)
  have opposite : s * (G - M) = -(s * (M - G)) := by
    rw [← Int.mul_neg]
    congr 1
    omega
  have split : s * (E - G + M) = s * E + s * (M - G) := by
    rw [← Int.mul_add]
    congr 1
    omega
  have eePos : 0 ≤ s * (E - G + M) := by
    rw [split]
    positivity
  have eeTop : (s * (E - G + M)).tdiv E ≤ s ↔ s * (M - G) < E := by
    rw [tdiv_le_iff exits (by omega), split, Int.mul_add, Int.mul_one, Int.mul_comm E]
    omega
  have edTop : (s * (D - 2 * E + 4 * G - 2 * M)).tdiv (3 * D) ≤ s ↔
      s * (D - 2 * E + 4 * G - 2 * M) < 3 * D * (s + 1) := tdiv_le_iff divisor (by omega)
  have edLow : 0 ≤ (s * (D - 2 * E + 4 * G - 2 * M)).tdiv (3 * D) ↔
      -(3 * D) < s * (D - 2 * E + 4 * G - 2 * M) := tdiv_nonneg_iff divisor
  rw [check_iff, FirstTry, ← eeTop, ← edTop, ← edLow]
  constructor
  · rintro ⟨fractions, -, -⟩
    rw [fractions_iff, case2b1] at fractions
    simp only at fractions
    omega
  · rintro ⟨eeIn, edIn⟩
    have small := eeTop.mp eeIn
    have ee : (s * (E - G + M)).tdiv E = s := by
      have rest := (tdiv_between (s * (E - G + M)) exits).2
      by_contra other
      have product := Int.mul_le_mul_of_nonneg_left (show (s * (E - G + M)).tdiv E ≤ s - 1 by omega) exits.le
      linarith
    have me : (s * (G - M)).tdiv E = 0 := by
      have low : 0 ≤ (s * (G - M)).tdiv E := (tdiv_nonneg_iff exits).mpr (by omega)
      have high := (tdiv_of_nonpos (show s * (G - M) ≤ 0 by omega) exits).1
      omega
    have edRest := tdiv_between (s * (D - 2 * E + 4 * G - 2 * M)) divisor
    have half := tdiv_of_nonneg (show 0 ≤ s - (s * (D - 2 * E + 4 * G - 2 * M)).tdiv (3 * D) by omega)
      (show (0 : Int) < 2 by decide)
    have halfRest := (tdiv_between (s - (s * (D - 2 * E + 4 * G - 2 * M)).tdiv (3 * D)) (show (0 : Int) < 2 by decide)).2
    rw [case2b1, ee, me]
    generalize (s * (D - 2 * E + 4 * G - 2 * M)).tdiv (3 * D) = wed at *
    generalize (s - wed).tdiv 2 = h at *
    have halfLow := Int.mul_le_mul_of_nonneg_right half.2 both.le
    have halfHigh := Int.mul_le_mul_of_nonneg_right halfRest.le both.le
    refine ⟨?_, checkEq_of_near (by omega) ?_, checkEq_of_near (by omega) ?_⟩
    · rw [fractions_iff]
      simp only
      omega
    · simp only [abs_le]
      constructor <;> linarith
    · simp only [abs_le]
      constructor <;> linarith

end Both
end Cases
end TorJet.Dirauth

/-!
## Totals and weights

Which relays make the totals disagree, and for which totals there are weights.
-/

namespace TorJet.Dirauth
open Base

section Totals
variable (guardBw : Nat → Int → Int) {t : Totals} {relays : List Routerstatus} {rs : Routerstatus}

def uncounted (rs : Routerstatus) : Int :=
  match rs.hasBandwidth, rs.guardfraction with
  | true, some percentage => nonGuardBw guardBw percentage (toInt32 rs.bandwidthKb)
  | _, _ => 0

def Totals.excess (t : Totals) : Int := t.G + t.M + t.E + t.D - t.T

theorem update_excess : (updateTotalBandwidthWeights guardBw t rs).excess = t.excess + uncounted guardBw rs := by
  have guards := rs.guard_of_guardfraction
  unfold updateTotalBandwidthWeights uncounted Totals.excess
  cases rs.hasBandwidth with
  | false => simp
  | true =>
      cases fraction : rs.guardfraction with
      | none => cases rs.isExit <;> cases rs.isGuard <;> simp <;> omega
      | some percentage =>
          rw [fraction] at guards
          rw [guards rfl]
          cases rs.isExit <;> simp <;> omega

theorem total_excess : (totalBandwidthWeights guardBw relays).excess = (relays.map (uncounted guardBw)).sum := by
  have from_any : ∀ t, (relays.foldl (updateTotalBandwidthWeights guardBw) t).excess =
      t.excess + (relays.map (uncounted guardBw)).sum := by
    induction relays with
    | nil => simp
    | cons rs rest ih =>
        intro t
        rw [List.foldl_cons, ih, update_excess, List.map_cons, List.sum_cons, Int.add_assoc]
  rw [totalBandwidthWeights, from_any]
  simp [Totals.excess]

end Totals

section Weights
variable {G M E D T s : Int} {w : Weights}

def Crowded (G M E D T s : Int) : Prop :=
  3 * E < T ∧ 3 * G < T ∧ max E G ≤ min E G + D ∧ 3 * D ≤ s * (3 * M - T)

def Balanceable (G M E D T s : Int) : Prop := Crowded G M E D T s → FirstTry G M E D s ∨ SecondTry G M E D T s

def Weighs (G M E D T s : Int) : Prop :=
  ∃ w, networkstatusComputeBwWeightsV10 G M E D T s = .emitted w ∧ Fractions s w ∧
    ∀ entry ∈ bandwidthWeights w s, 0 ≤ entry.2 ∧ entry.2 ≤ s

theorem bandwidthWeights_range (nonneg : 0 ≤ s) (fractions : Fractions s w) :
    ∀ entry ∈ bandwidthWeights w s, 0 ≤ entry.2 ∧ entry.2 ≤ s := by
  have inside := rangeCheck_iff.mp fractions.inside
  intro entry mem
  simp only [bandwidthWeights, List.mem_cons, List.not_mem_nil, or_false] at mem
  rcases mem with rfl | rfl | rfl | rfl | rfl | rfl | rfl | rfl | rfl | rfl | rfl | rfl | rfl | rfl | rfl | rfl |
    rfl | rfl | rfl <;> simp only <;> omega

theorem case2b_fractions (selected : case2b G M E D T s = some w) : Fractions s w := by
  rw [case2b] at selected
  simp only at selected
  split at selected
  · rename_i passes
    obtain rfl := Option.some.inj selected
    exact (check_iff.mp passes).1
  · split at selected
    · cases selected
    · rename_i passes
      obtain rfl := Option.some.inj selected
      exact (check_mid_iff.mp passes).1

theorem case2b_isSome : (case2b G M E D T s).isSome = true ↔
    networkstatusCheckWeights (case2b1 G M E D s) s G M E D T 10 true = .noError ∨
      Fractions s (case2b2 G M E D s) ∧ EgBalanced (case2b2 G M E D s) G E D T := by
  rw [← check_mid_iff, case2b]
  simp only
  split
  · rename_i passes
    simp [passes]
  · rename_i fails
    split
    · rename_i failsToo
      simp only [Option.isSome_none, Bool.false_eq_true, false_iff, not_or, not_not]
      exact ⟨fails, failsToo⟩
    · rename_i passes
      exact iff_of_true rfl (.inr passes)

section Positive
variable (guards : 0 < G) (middles : 0 < M) (exits : 0 < E) (both : 0 < D) (total : T = G + M + E + D) (scale : 10 ≤ s)
include guards middles exits both total scale

theorem selectWeights_fractions (selected : selectWeights G M E D T s = some w) : Fractions s w := by
  rw [selectWeights] at selected
  split at selected
  · rename_i plenty
    have passes := case1_checked guards middles exits both total scale plenty.1 plenty.2
    rw [checked, if_pos passes] at selected
    obtain rfl := Option.some.inj selected
    exact (check_iff.mp passes).1
  · rename_i notNeither
    split at selected
    · split at selected
      · obtain rfl := Option.some.inj selected
        exact case2a_fractions scale
      · exact case2b_fractions selected
    · rename_i notBoth
      split at selected
      · obtain rfl := Option.some.inj selected
        exact case3a_fractions guards middles exits scale
      · rename_i enough
        have passes := case3b_checked guards middles exits both total scale notBoth notNeither enough
        rw [checked, if_pos passes] at selected
        obtain rfl := Option.some.inj selected
        exact (check_iff.mp passes).1

theorem selectWeights_isSome : (selectWeights G M E D T s).isSome = true ↔ Balanceable G M E D T s := by
  rw [selectWeights]
  split
  · rename_i plenty
    have passes := case1_checked guards middles exits both total scale plenty.1 plenty.2
    rw [checked, if_pos passes]
    exact iff_of_true rfl fun crowded => absurd crowded.1 (by omega)
  · rename_i notNeither
    split
    · rename_i scarce
      split
      · rename_i apart
        exact iff_of_true rfl fun crowded => absurd crowded.2.2.1 (by omega)
      · rename_i near
        rw [case2b_isSome]
        by_cases crowd : 3 * D ≤ s * (3 * M - T)
        · rw [case2b1_crowded guards exits both total scale scarce.1 scarce.2 crowd,
            case2b2_crowded guards middles exits both total scale scarce.1 scarce.2 crowd]
          exact ⟨fun tries _ => tries, fun tries => tries ⟨scarce.1, scarce.2, Int.not_lt.mp near, crowd⟩⟩
        · have uncrowded := case2b2_uncrowded guards middles exits both total scale scarce.1 scarce.2
            (Int.not_le.mp crowd)
          exact iff_of_true (.inr uncrowded) fun crowded => absurd crowded.2.2.2 crowd
    · rename_i notBoth
      split
      · exact iff_of_true rfl fun crowded => absurd ⟨crowded.1, crowded.2.1⟩ notBoth
      · rename_i enough
        have passes := case3b_checked guards middles exits both total scale notBoth notNeither enough
        rw [checked, if_pos passes]
        exact iff_of_true rfl fun crowded => absurd ⟨crowded.1, crowded.2.1⟩ notBoth

theorem weighs_iff : Weighs G M E D T s ↔ s ≤ 2 ^ 31 - 1 ∧ Balanceable G M E D T s := by
  rw [Weighs, networkstatusComputeBwWeightsV10, if_neg (by omega),
    ← selectWeights_isSome guards middles exits both total scale]
  cases selected : selectWeights G M E D T s with
  | none => simp
  | some w =>
      have fractions := selectWeights_fractions guards middles exits both total scale selected
      have range := bandwidthWeights_range (show 0 ≤ s by omega) fractions
      simp only [Option.isSome_some, and_true]
      split
      · rename_i small
        exact iff_of_true ⟨w, rfl, fractions, range⟩ small.2
      · rename_i large
        simp only [reduceCtorEq, false_and, exists_false, false_iff]
        omega

end Positive

/-- The totals add up exactly if no bandwidth is left out of the fifth, and there are balanced weights exactly if the
scale is a 32-bit number and the totals can be balanced. -/
theorem bandwidthWeights_balanced (guardBw : Nat → Int → Int) (relays : List Routerstatus) (guards : 0 < G)
    (middles : 0 < M) (exits : 0 < E) (both : 0 < D) (total : T = G + M + E + D) (scale : 10 ≤ s) :
    ((totalBandwidthWeights guardBw relays).T =
        (totalBandwidthWeights guardBw relays).G + (totalBandwidthWeights guardBw relays).M +
          (totalBandwidthWeights guardBw relays).E + (totalBandwidthWeights guardBw relays).D ↔
      (relays.map (uncounted guardBw)).sum = 0) ∧
    (Weighs G M E D T s ↔ s ≤ 2 ^ 31 - 1 ∧ Balanceable G M E D T s) := by
  refine ⟨?_, weighs_iff guards middles exits both total scale⟩
  rw [← total_excess, Totals.excess]
  omega

def halfGuard : Routerstatus := ⟨100, true, some 50, false, true, fun _ => rfl⟩

def nearestShare (percentage : Nat) (bandwidth : Int) : Int := (2 * percentage * bandwidth + 100) / 200

theorem bandwidthWeights_balanced_example :
    ((totalBandwidthWeights nearestShare [halfGuard]).T =
        (totalBandwidthWeights nearestShare [halfGuard]).G + (totalBandwidthWeights nearestShare [halfGuard]).M +
          (totalBandwidthWeights nearestShare [halfGuard]).E + (totalBandwidthWeights nearestShare [halfGuard]).D ↔
      ([halfGuard].map (uncounted nearestShare)).sum = 0) ∧
    (Weighs 100 1000 100 100 1300 10000 ↔ (10000 : Int) ≤ 2 ^ 31 - 1 ∧ Balanceable 100 1000 100 100 1300 10000) :=
  bandwidthWeights_balanced nearestShare [halfGuard] (by decide) (by decide) (by decide) (by decide) (by decide)
    (by decide)

/-- A guard with a guard fraction makes the totals differ, and a network with most of its bandwidth in the middle has
no weights. -/
theorem bandwidthWeights_unbalanced :
    (totalBandwidthWeights nearestShare [halfGuard]).T ≠
        (totalBandwidthWeights nearestShare [halfGuard]).G + (totalBandwidthWeights nearestShare [halfGuard]).M +
          (totalBandwidthWeights nearestShare [halfGuard]).E + (totalBandwidthWeights nearestShare [halfGuard]).D ∧
      ¬ Weighs 100 1000 100 100 1300 10000 := by
  refine ⟨by decide, ?_⟩
  rintro ⟨w, emitted, -⟩
  have refused : networkstatusComputeBwWeightsV10 100 1000 100 100 1300 10000 = .refused := by decide
  rw [refused] at emitted
  cases emitted

end Weights
end TorJet.Dirauth
