import Mathlib.Algebra.BigOperators.Group.List.Basic
import Mathlib.Algebra.GroupWithZero.Nat
import Mathlib.Data.List.Range
import Mathlib.Order.Monotone.Basic
import Mathlib.Tactic.ByContra

/-!
# The Gregorian calendar

Dates of the proleptic calendar, one after the other, and how many days are between them. Months count from zero.
-/

namespace TorJet.Base.Calendar

def leap (year : Nat) : Bool := year % 4 = 0 && (year % 100 ≠ 0 || year % 400 = 0)

def monthLength (year : Nat) : Nat → Nat
  | 1 => if leap year then 29 else 28
  | 3 | 5 | 8 | 10 => 30
  | _ => 31

@[ext]
structure Date where
  year : Nat
  month : Nat
  day : Nat
  deriving DecidableEq, Repr

namespace Date

structure Valid (d : Date) : Prop where
  month : d.month < 12
  first : 1 ≤ d.day
  last : d.day ≤ monthLength d.year d.month

def next (d : Date) : Date :=
  if d.day < monthLength d.year d.month then { d with day := d.day + 1 }
  else if d.month < 11 then { d with month := d.month + 1, day := 1 }
  else { year := d.year + 1, month := 0, day := 1 }

def Before (d e : Date) : Prop :=
  d.year < e.year ∨ d.year = e.year ∧ (d.month < e.month ∨ d.month = e.month ∧ d.day < e.day)

def later (d : Date) : Nat → Date
  | 0 => d
  | n + 1 => (d.later n).next

end Date

/-! ## Counting days -/

def leapsBefore (year : Nat) : Nat := (year - 1) / 4 - (year - 1) / 100 + (year - 1) / 400

def daysBefore (year month : Nat) : Nat := ((List.range month).map (monthLength year)).sum

def Date.number (d : Date) : Nat := 365 * d.year + leapsBefore d.year + daysBefore d.year d.month + (d.day - 1)

section Lemmas
variable {year month : Nat} {d e : Date} {n : Nat}

theorem leapsBefore_succ (year : Nat) (later : 1 ≤ year) :
    leapsBefore (year + 1) = leapsBefore year + if leap year then 1 else 0 := by
  obtain ⟨before, rfl⟩ := Nat.exists_eq_add_of_le' later
  have hundred : 100 ∣ before + 1 → 4 ∣ before + 1 := (Nat.dvd_trans (by decide) ·)
  have fourHundred : 400 ∣ before + 1 → 100 ∣ before + 1 := (Nat.dvd_trans (by decide) ·)
  have fewer : before / 100 ≤ before / 4 := Nat.div_le_div_left (by decide) (by decide)
  rw [leapsBefore, leapsBefore, leap, Nat.add_sub_cancel, Nat.add_sub_cancel, Nat.succ_div, Nat.succ_div, Nat.succ_div]
  simp only [← Nat.dvd_iff_mod_eq_zero, ne_eq]
  by_cases four : 4 ∣ before + 1
  · by_cases century : 100 ∣ before + 1
    · by_cases last : 400 ∣ before + 1
      · simp only [four, century, last, if_true]
        simp
        omega
      · simp only [four, century, last, if_true, if_false]
        simp
    · have last : ¬ 400 ∣ before + 1 := mt fourHundred century
      simp only [four, century, last, if_true, if_false]
      simp
      omega
  · have century : ¬ 100 ∣ before + 1 := mt hundred four
    have last : ¬ 400 ∣ before + 1 := mt fourHundred century
    simp only [four, century, last, if_false]
    simp

theorem daysBefore_succ (year month : Nat) : daysBefore year (month + 1) = daysBefore year month + monthLength year month := by
  rw [daysBefore, List.range_succ, List.map_append, List.sum_append, List.map_singleton, List.sum_singleton, daysBefore]

theorem daysBefore_year (year : Nat) : daysBefore year 12 = 365 + if leap year then 1 else 0 := by
  cases isLeap : leap year <;> simp [daysBefore, List.range, List.range.loop, monthLength, isLeap]

theorem daysBefore_mono (year : Nat) : Monotone (daysBefore year) := by
  apply monotone_nat_of_le_succ
  intro month
  rw [daysBefore_succ]
  exact Nat.le_add_right _ _

namespace Date

theorem next_valid (valid : d.Valid) : d.next.Valid := by
  have pos (year month : Nat) : 1 ≤ monthLength year month := by
    rw [monthLength.eq_def]
    split
    · split <;> decide
    all_goals decide
  rw [next]
  split
  · rename_i inside
    exact ⟨valid.month, Nat.succ_le_succ (Nat.zero_le _), inside⟩
  · split
    · rename_i more
      exact ⟨Nat.succ_lt_succ more, Nat.le_refl _, pos _ _⟩
    · exact ⟨Nat.zero_lt_succ 11, Nat.le_refl _, pos _ _⟩

theorem later_valid (valid : d.Valid) (n : Nat) : (d.later n).Valid := by
  induction n with
  | zero => exact valid
  | succ n ih => exact next_valid ih

theorem later_year (d : Date) (n : Nat) : d.year ≤ (d.later n).year := by
  induction n with
  | zero => exact Nat.le_refl _
  | succ n ih =>
      refine ih.trans ?_
      rw [later, next]
      split
      · exact Nat.le_refl _
      · split
        · exact Nat.le_refl _
        · exact Nat.le_succ _

theorem number_next (valid : d.Valid) (year : 1 ≤ d.year) : d.next.number = d.number + 1 := by
  have first := valid.first
  have last := valid.last
  have month := valid.month
  rw [next]
  split
  · simp only [number]
    omega
  · split
    · simp only [number, daysBefore_succ]
      omega
    · have december : d.month = 11 := by omega
      have whole := daysBefore_year d.year
      rw [daysBefore_succ] at whole
      have start : daysBefore (d.year + 1) 0 = 0 := rfl
      rw [december] at last
      simp only [number, leapsBefore_succ d.year year, december, start] at *
      omega

theorem number_later (valid : d.Valid) (year : 1 ≤ d.year) (n : Nat) : (d.later n).number = d.number + n := by
  induction n with
  | zero => rfl
  | succ n ih =>
      rw [later, number_next (later_valid valid n) (year.trans (later_year d n)), ih]
      rfl

theorem number_before (validD : d.Valid) (year : 1 ≤ d.year) (before : d.Before e) :
    d.number < e.number := by
  have inYear : daysBefore d.year d.month + (d.day - 1) < daysBefore d.year (d.month + 1) := by
    rw [daysBefore_succ]
    have := validD.first
    have := validD.last
    omega
  rcases before with earlier | ⟨sameYear, earlier | ⟨sameMonth, earlier⟩⟩
  · have whole : daysBefore d.year (d.month + 1) ≤ daysBefore d.year 12 := daysBefore_mono d.year validD.month
    rw [daysBefore_year] at whole
    have starts : 365 * d.year + leapsBefore d.year + (365 + if leap d.year then 1 else 0) ≤
        365 * e.year + leapsBefore e.year := by
      have rest (k : Nat) : 365 * (d.year + 1) + leapsBefore (d.year + 1) ≤
          365 * (d.year + 1 + k) + leapsBefore (d.year + 1 + k) := by
        induction k with
        | zero => exact Nat.le_refl _
        | succ k ih =>
            have step := leapsBefore_succ (d.year + 1 + k) (by omega)
            rw [Nat.add_assoc (d.year + 1) k 1] at step
            omega
      have here := rest (e.year - (d.year + 1))
      rw [Nat.add_sub_cancel' earlier, leapsBefore_succ d.year year] at here
      omega
    simp only [number]
    omega
  · have whole : daysBefore d.year (d.month + 1) ≤ daysBefore d.year e.month := daysBefore_mono d.year earlier
    simp only [number, ← sameYear]
    omega
  · have := validD.first
    simp only [number, ← sameYear, ← sameMonth]
    omega

theorem number_inj (validD : d.Valid) (validE : e.Valid) (yearD : 1 ≤ d.year) (yearE : 1 ≤ e.year)
    (same : d.number = e.number) : d = e := by
  by_contra other
  have either : d.Before e ∨ e.Before d := by
    rw [Date.ext_iff] at other
    simp only [Before]
    omega
  rcases either with before | before
  · exact absurd same (number_before validD yearD before).ne
  · exact absurd same (number_before validE yearE before).ne'

theorem later_number (validD : d.Valid) (validE : e.Valid) (year : 1 ≤ d.year) (yearE : 1 ≤ e.year)
    (after : d.number ≤ e.number) : d.later (e.number - d.number) = e := by
  apply number_inj (later_valid validD _) validE (year.trans (later_year d _)) yearE
  rw [number_later validD year]
  omega

theorem later_before (validD : d.Valid) (year : 1 ≤ d.year) {m : Nat} : (d.later m).Before (d.later n) ↔ m < n := by
  have earlier {m n : Nat} (before : (d.later m).Before (d.later n)) : m < n := by
    have less := number_before (later_valid validD m) (year.trans (later_year d m)) before
    rw [number_later validD year, number_later validD year] at less
    omega
  refine ⟨earlier, fun less => ?_⟩
  by_contra notBefore
  have either : d.later m = d.later n ∨ (d.later n).Before (d.later m) := by
    rw [Date.ext_iff]
    simp only [Before] at notBefore ⊢
    omega
  rcases either with same | before
  · have numbers := congrArg number same
    rw [number_later validD year, number_later validD year] at numbers
    omega
  · have := earlier before
    omega

end Date
end Lemmas
end TorJet.Base.Calendar
