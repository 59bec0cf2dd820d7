import Mathlib.Algebra.Group.Int.Defs
import Mathlib.Tactic.IntervalCases
import Mathlib.Tactic.Ring
import TorJet.Base.Calendar
import TorJet.Net.CString

/-!
# Times

`tor_timegm_impl` computes a time from its fields, and `parse_rfc1123_time` reads the fields from a text.
-/

namespace TorJet.Encoding
open Base Net Calendar

/-- The fields of a `struct tm` that are read. -/
structure Tm where
  year : Int
  mon : Int
  mday : Int
  hour : Int
  min : Int
  sec : Int
  deriving DecidableEq, Repr

def int32Max : Int := 2147483647

def isLeapyear (y : Int) : Bool := y.tmod 4 = 0 && (y.tmod 100 ≠ 0 || y.tmod 400 = 0)

def nLeapdays (year1 year2 : Int) : Int :=
  let year1 := year1 - 1
  let year2 := year2 - 1
  (year2.tdiv 4 - year1.tdiv 4) - (year2.tdiv 100 - year1.tdiv 100) + (year2.tdiv 400 - year1.tdiv 400)

def daysPerMonth : List Int := [31, 28, 31, 30, 31, 30, 31, 31, 30, 31, 30, 31]

/-- The days of `tor_timegm_impl` before the month, in a year of the calendar. -/
def daysBeforeMonth (year mon : Int) : Int :=
  let days := 365 * (year - 1970) + nLeapdays 1970 year
  let days := days + (daysPerMonth.take mon.toNat).sum
  if 1 < mon && isLeapyear year then days + 1 else days

/-- `tor_timegm_impl`, where `time_t` has 64 bits. -/
def torTimegmImpl (tm : Tm) : Option Int :=
  let year := if tm.year < int32Max - 1900 then tm.year + 1900 else int32Max
  let invalidYear := decide (year < 1970) || decide (int32Max - 1900 ≤ tm.year)
  let dpm :=
    if 0 ≤ tm.mon ∧ tm.mon ≤ 11 then
      if tm.mon = 1 && !invalidYear && isLeapyear tm.year then 29 else daysPerMonth.getD tm.mon.toNat 0
    else 0
  if invalidYear || tm.mon < 0 || 11 < tm.mon || tm.mday < 1 || dpm < tm.mday || tm.hour < 0 || 23 < tm.hour ||
      tm.min < 0 || 59 < tm.min || tm.sec < 0 || 60 < tm.sec then none
  else
    let days := daysBeforeMonth year tm.mon + (tm.mday - 1)
    let hours := days * 24 + tm.hour
    let minutes := hours * 60 + tm.min
    some (minutes * 60 + tm.sec)

/-! ## Parsing -/

/-- A directive of a `tor_sscanf` pattern. -/
inductive Directive
  | literal (c : Char)
  | string (width : Nat)
  | unsigned (width : Nat)
  deriving DecidableEq, Repr

inductive Scanned
  | text (t : Text)
  | number (n : Nat)
  deriving DecidableEq, Repr

/-- `MAX_SCANF_WIDTH`, the width of a number without one. -/
def maxScanfWidth : Nat := 9999

/-- `tor_sscanf`: what it assigns before the text does not match any more. -/
def torSscanf : List Directive → Text → List Scanned
  | [], _ => []
  | .literal c :: pattern, buf => if buf.head? = some c then torSscanf pattern buf.tail else []
  | .string width :: pattern, buf =>
      let word := (buf.take width).takeWhile fun c => !torIsspace c
      .text word :: torSscanf pattern (buf.drop word.length)
  | .unsigned width :: pattern, buf =>
      match scanUnsigned width buf with
      | none => []
      | some (n, rest) => .number n :: torSscanf pattern rest

def monthNames : List Text := ["Jan", "Feb", "Mar", "Apr", "May", "Jun", "Jul", "Aug", "Sep", "Oct", "Nov", "Dec"].map String.toList

/-- `"%3s, %2u %3s %u %2u:%2u:%2u GMT"` -/
def rfc1123Pattern : List Directive :=
  [.string 3, .literal ',', .literal ' ', .unsigned 2, .literal ' ', .string 3, .literal ' ', .unsigned maxScanfWidth,
    .literal ' ', .unsigned 2, .literal ':', .unsigned 2, .literal ':', .unsigned 2, .literal ' ', .literal 'G',
    .literal 'M', .literal 'T']

/-- What `parse_rfc1123_time` reads from a text. -/
structure Rfc1123 where
  mday : Nat
  mon : Nat
  year : Nat
  hour : Nat
  min : Nat
  sec : Nat
  deriving DecidableEq, Repr

/-- The first half of `parse_rfc1123_time`: the numbers and the month. -/
def scanRfc1123 (buf : Text) : Option Rfc1123 :=
  if buf.length ≠ 29 then none
  else
    match torSscanf rfc1123Pattern buf with
    | [.text _, .number mday, .text month, .number year, .number hour, .number min, .number sec] =>
        (monthNames.findIdx? (· = month)).map fun mon => ⟨mday, mon, year, hour, min, sec⟩
    | _ => none

namespace Rfc1123
variable (f : Rfc1123)

def tm : Tm := ⟨f.year - 1900, f.mon, f.mday, f.hour, f.min, f.sec⟩

def invalidYear : Bool := int32Max ≤ f.year || f.year < 1970

def dpm : Int := if f.mon = 1 && !f.invalidYear && isLeapyear f.year then 29 else daysPerMonth.getD f.mon 0

end Rfc1123

/-- `parse_rfc1123_time`, with the `tor_timegm` of the platform. -/
def parseRfc1123Time (torTimegm : Tm → Option Int) (buf : Text) : Option Int :=
  match scanRfc1123 buf with
  | none => none
  | some f =>
      if f.invalidYear || f.mday < 1 || f.dpm < f.mday || 23 < f.hour || 59 < f.min || 60 < f.sec then none
      else torTimegm f.tm

/-! ## The days of the calendar -/

def epoch : Date := ⟨1970, 0, 1⟩

theorem epoch_valid : epoch.Valid := ⟨by decide, by decide, by decide⟩

structure Tm.On (tm : Tm) (n : Nat) : Prop where
  year : tm.year + 1900 = (epoch.later n).year
  mon : tm.mon = (epoch.later n).month
  mday : tm.mday = (epoch.later n).day
  hour : 0 ≤ tm.hour ∧ tm.hour ≤ 23
  min : 0 ≤ tm.min ∧ tm.min ≤ 59
  sec : 0 ≤ tm.sec ∧ tm.sec ≤ 60

def Tm.date (tm : Tm) : Date := ⟨(tm.year + 1900).toNat, tm.mon.toNat, tm.mday.toNat⟩

def Tm.secondOfDay (tm : Tm) : Int := tm.hour * 3600 + tm.min * 60 + tm.sec

structure Tm.Real (tm : Tm) : Prop where
  mon : 0 ≤ tm.mon
  mday : 1 ≤ tm.mday
  date : tm.date.Valid
  hour : 0 ≤ tm.hour ∧ tm.hour ≤ 23
  min : 0 ≤ tm.min ∧ tm.min ≤ 59
  sec : 0 ≤ tm.sec ∧ tm.sec ≤ 60

section Days
variable {tm : Tm} {y m : Nat} {n : Nat}

theorem isLeapyear_cast (y : Nat) : isLeapyear y = leap y := by
  have cast (k : Nat) : (y : Int).tmod (k : Nat) = ((y % k : Nat) : Int) := (Int.ofNat_tmod y k).symm
  have four := cast 4
  have hundred := cast 100
  have fourHundred := cast 400
  simp only [Nat.cast_ofNat] at four hundred fourHundred
  rw [isLeapyear, leap, four, hundred, fourHundred]
  simp only [Int.natCast_eq_zero, ne_eq]

theorem nLeapdays_cast (later : 1970 ≤ y) : nLeapdays 1970 y = (leapsBefore y : Int) - leapsBefore 1970 := by
  have cast (k : Int) : ((y : Int) - 1).tdiv k = ((y : Int) - 1) / k := Int.tdiv_eq_ediv_of_nonneg (by omega)
  have first : (1970 - 1 : Int).tdiv 4 = 492 ∧ (1970 - 1 : Int).tdiv 100 = 19 ∧ (1970 - 1 : Int).tdiv 400 = 4 := by decide
  simp only [nLeapdays, cast, first, leapsBefore]
  omega

theorem daysPerMonth_length (twelve : m < 12) :
    daysPerMonth.getD m 0 = if m = 1 then 28 else (monthLength y m : Int) := by
  interval_cases m <;> rfl

theorem daysPerMonth_sum (twelve : m < 12) :
    (daysPerMonth.take m).sum + (if 1 < m ∧ leap y = true then 1 else 0) = (daysBefore y m : Int) := by
  cases isLeap : leap y <;> interval_cases m <;>
    simp [daysPerMonth, daysBefore, List.range, List.range.loop, monthLength, isLeap]

theorem daysBeforeMonth_cast (later : 1970 ≤ y) (twelve : m < 12) :
    daysBeforeMonth y m = (Date.number ⟨y, m, 1⟩ : Int) - epoch.number := by
  have leaps := nLeapdays_cast later
  have months := daysPerMonth_sum (y := y) twelve
  have january : daysBefore 1970 0 = 0 := rfl
  simp only [daysBeforeMonth, isLeapyear_cast, Int.toNat_natCast, Date.number, epoch, january]
  have lift : (1 < (m : Int) && leap y) = true ↔ 1 < m ∧ leap y = true := by
    rw [Bool.and_eq_true, decide_eq_true_eq]
    exact and_congr_left' (by omega)
  split
  · rename_i march
    rw [if_pos (lift.mp march)] at months
    omega
  · rename_i before
    rw [if_neg fun march => before (lift.mpr march)] at months
    omega

end Days

def Tm.day (tm : Tm) : Int := tm.date.number - epoch.number

/-- The month's length as `tor_timegm_impl` has it. -/
def Tm.dpm (tm : Tm) : Int := if tm.mon = 1 && isLeapyear tm.year then 29 else daysPerMonth.getD tm.mon.toNat 0

/-- The fields that `tor_timegm_impl` takes for a date. -/
structure Tm.Accepted (tm : Tm) : Prop where
  year : tm.year + 1900 < int32Max
  mon : 0 ≤ tm.mon ∧ tm.mon ≤ 11
  mday : 1 ≤ tm.mday ∧ tm.mday ≤ tm.dpm
  hour : 0 ≤ tm.hour ∧ tm.hour ≤ 23
  min : 0 ≤ tm.min ∧ tm.min ≤ 59
  sec : 0 ≤ tm.sec ∧ tm.sec ≤ 60

section Timegm
variable {tm : Tm} {n : Nat}

theorem on_iff (since : 1970 ≤ tm.year + 1900) : tm.On n ↔ tm.Real ∧ (n : Int) = tm.day := by
  constructor
  · intro on
    have date : tm.date = epoch.later n := by
      rw [Date.ext_iff]
      refine ⟨?_, ?_, ?_⟩
      · simp only [Tm.date, on.year, Int.toNat_natCast]
      · simp only [Tm.date, on.mon, Int.toNat_natCast]
      · simp only [Tm.date, on.mday, Int.toNat_natCast]
    have valid := Date.later_valid epoch_valid n
    have first := valid.first
    refine ⟨⟨?_, ?_, date ▸ valid, on.hour, on.min, on.sec⟩, ?_⟩
    · rw [on.mon]
      exact Int.natCast_nonneg _
    · rw [on.mday]
      omega
    · rw [Tm.day, date, Date.number_later epoch_valid (by decide)]
      omega
  · rintro ⟨real, day⟩
    have after : epoch.number ≤ tm.date.number := by
      rw [Tm.day] at day
      omega
    have found := Date.later_number epoch_valid real.date (by decide) (by simp only [Tm.date]; omega) after
    have count : tm.date.number - epoch.number = n := by
      rw [Tm.day] at day
      omega
    rw [count] at found
    have mon := real.mon
    have mday := real.mday
    refine ⟨?_, ?_, ?_, real.hour, real.min, real.sec⟩
    · rw [found, Tm.date]
      dsimp only
      omega
    · rw [found, Tm.date]
      dsimp only
      omega
    · rw [found, Tm.date]
      dsimp only
      omega

theorem Tm.Real.on (real : tm.Real) (since : 1970 ≤ tm.year + 1900) : ∃ n : Nat, tm.On n := by
  have after : epoch.number ≤ tm.date.number := by
    by_cases same : tm.date = epoch
    · rw [same]
    · have year : epoch.year ≤ tm.date.year := by
        simp only [epoch, Tm.date]
        omega
      have first := real.date.first
      apply (Date.number_before epoch_valid (by decide) ?_).le
      rw [Date.ext_iff] at same
      simp only [Date.Before, epoch] at *
      omega
  refine ⟨tm.date.number - epoch.number, (on_iff since).mpr ⟨real, ?_⟩⟩
  rw [Tm.day]
  omega

theorem torTimegmImpl_accepted (since : 1970 ≤ tm.year + 1900) (accepted : tm.Accepted) :
    torTimegmImpl tm = some (86400 * tm.day + tm.secondOfDay) := by
  obtain ⟨y, year⟩ : ∃ y : Nat, tm.year + 1900 = y := ⟨(tm.year + 1900).toNat, by omega⟩
  obtain ⟨m, mon⟩ : ∃ m : Nat, tm.mon = m := ⟨tm.mon.toNat, by have := accepted.mon; omega⟩
  have bounds := accepted.year
  have mons := accepted.mon
  have mdays := accepted.mday
  have hours := accepted.hour
  have mins := accepted.min
  have secs := accepted.sec
  have days := daysBeforeMonth_cast (y := y) (m := m) (by omega) (by omega)
  have small : tm.year < int32Max - 1900 := by omega
  have invalid : (decide (tm.year + 1900 < 1970) || decide (int32Max - 1900 ≤ tm.year)) = false := by
    rw [decide_eq_false (by omega), decide_eq_false (by omega)]
    rfl
  have length : (if 0 ≤ tm.mon ∧ tm.mon ≤ 11 then
      if tm.mon = 1 && !false && isLeapyear tm.year then 29 else daysPerMonth.getD tm.mon.toNat 0 else 0) = tm.dpm := by
    rw [if_pos mons, Tm.dpm, Bool.not_false, Bool.and_true]
  have day : tm.day = (Date.number ⟨y, m, 1⟩ : Int) - epoch.number + (tm.mday - 1) := by
    simp only [Tm.day, Tm.date, Date.number, year, mon, Int.toNat_natCast]
    omega
  rw [torTimegmImpl, if_pos small]
  dsimp only
  rw [invalid, length, if_neg]
  · rw [day, year, mon, days, Tm.secondOfDay]
    congr 1
    ring
  · simp only [Bool.or_eq_true, decide_eq_true_eq, Bool.false_eq_true, false_or]
    omega

theorem torTimegmImpl_refused (since : 1970 ≤ tm.year + 1900) (refused : ¬ tm.Accepted) : torTimegmImpl tm = none := by
  rw [torTimegmImpl]
  dsimp only
  rw [if_pos]
  by_contra ok
  simp only [Bool.or_eq_true, decide_eq_true_eq, not_or] at ok
  obtain ⟨⟨⟨⟨⟨⟨⟨⟨⟨⟨year, low⟩, high⟩, first⟩, last⟩, hour⟩, hour'⟩, min⟩, min'⟩, sec⟩, sec'⟩ := ok
  have small : tm.year < int32Max - 1900 := by omega
  apply refused
  refine ⟨by omega, ⟨by omega, by omega⟩, ⟨by omega, ?_⟩, ⟨by omega, by omega⟩, ⟨by omega, by omega⟩, ⟨by omega, by omega⟩⟩
  rw [if_pos small] at last year
  have invalid : (decide (tm.year + 1900 < 1970) || decide (int32Max - 1900 ≤ tm.year)) = false := by
    rw [decide_eq_false (by omega), decide_eq_false (by omega)]
    rfl
  rw [invalid, if_pos ⟨by omega, by omega⟩, Bool.not_false, Bool.and_true] at last
  rw [Tm.dpm]
  omega

end Timegm

/-- A day and time after the epoch, as `gmtime` fills the fields in. -/
def gmtime (t : Nat) : Tm :=
  let date := epoch.later (t / 86400)
  let second := t % 86400
  ⟨(date.year : Int) - 1900, date.month, date.day, second / 3600, second / 60 % 60, second % 60⟩

def Tm.Mistaken (tm : Tm) : Prop :=
  tm.mon = 1 ∧ tm.mday = 29 ∧ ((tm.year + 1900) % 400 = 0 ∨ (tm.year + 1900) % 400 = 300)

structure Tm.Regular (tm : Tm) : Prop where
  small : tm.Real → tm.year + 1900 < int32Max
  day : tm.Mistaken → tm.year + 1900 < int32Max →
    ¬ ((0 ≤ tm.hour ∧ tm.hour ≤ 23) ∧ (0 ≤ tm.min ∧ tm.min ≤ 59) ∧ 0 ≤ tm.sec ∧ tm.sec ≤ 60)

/-- The fields stand for a time, and it is the one that is returned; a later date has a later time; `gmtime` is
undone, and so is a text with these fields. -/
structure Tm.Exact (tm : Tm) : Prop where
  real : ∀ n : Nat, tm.On n → torTimegmImpl tm = some (86400 * n + tm.secondOfDay)
  unreal : (¬ ∃ n : Nat, tm.On n) → torTimegmImpl tm = none
  increasing : ∀ later : Tm, 1970 ≤ later.year + 1900 → later.Regular → tm.date.Before later.date →
    (tm.sec ≤ 59 ∨ tm.secondOfDay = later.secondOfDay) →
    ∀ t u, torTimegmImpl tm = some t → torTimegmImpl later = some u → t < u
  inverse : ∀ t : Nat, gmtime t = tm → torTimegmImpl tm = some (t : Int)
  rfc1123 : ∀ buf f, scanRfc1123 buf = some f → f.tm = tm →
    ((parseRfc1123Time torTimegmImpl buf).isSome ↔ (torTimegmImpl tm).isSome)

section Exact
variable {tm : Tm} {n : Nat}

theorem leap_shift (k : Nat) : leap k = leap (k + 1900) ↔ ¬ ((k + 1900) % 400 = 0 ∨ (k + 1900) % 400 = 300) := by
  rw [Bool.eq_iff_iff, leap, leap]
  simp only [Bool.and_eq_true, Bool.or_eq_true, decide_eq_true_eq]
  omega

theorem dpm_eq (since : 1970 ≤ tm.year + 1900) (mon : 0 ≤ tm.mon ∧ tm.mon ≤ 11) :
    tm.dpm = (monthLength tm.date.year tm.date.month : Int) ∨
      tm.mon = 1 ∧ ((tm.year + 1900) % 400 = 0 ∧ tm.dpm = 28 ∧ monthLength tm.date.year tm.date.month = 29 ∨
        (tm.year + 1900) % 400 = 300 ∧ tm.dpm = 29 ∧ monthLength tm.date.year tm.date.month = 28) := by
  obtain ⟨k, year⟩ : ∃ k : Nat, tm.year = k := ⟨tm.year.toNat, by omega⟩
  obtain ⟨m, month⟩ : ∃ m : Nat, tm.mon = m := ⟨tm.mon.toNat, by omega⟩
  have sum : tm.date.year = k + 1900 := by
    rw [Tm.date, year]
    rfl
  have same : tm.date.month = m := by
    rw [Tm.date, month]
    rfl
  rw [Tm.dpm, sum, same, month, year, isLeapyear_cast, Int.toNat_natCast, daysPerMonth_length (y := k + 1900) (by omega)]
  by_cases february : m = 1
  · subst february
    have shift := leap_shift k
    have before : leap k = true ↔ k % 4 = 0 ∧ (k % 100 ≠ 0 ∨ k % 400 = 0) := by
      rw [leap, Bool.and_eq_true, Bool.or_eq_true, decide_eq_true_eq, decide_eq_true_eq, decide_eq_true_eq]
    cases here : leap k with
    | true =>
        have counted := before.mp here
        cases there : leap (k + 1900) with
        | true =>
            left
            simp [monthLength, there]
        | false =>
            right
            rw [here, there] at shift
            simp only [Bool.true_eq_false, false_iff, not_not] at shift
            simp only [monthLength, there]
            refine ⟨rfl, .inr ⟨by omega, rfl, rfl⟩⟩
    | false =>
        have counted := mt before.mpr (by rw [here]; exact Bool.false_ne_true)
        cases there : leap (k + 1900) with
        | true =>
            right
            rw [here, there] at shift
            simp only [Bool.false_eq_true, false_iff, not_not] at shift
            simp only [monthLength, there]
            refine ⟨rfl, .inl ⟨by omega, rfl, rfl⟩⟩
        | false =>
            left
            simp [monthLength, there]
  · left
    rw [if_neg, if_neg february]
    rw [Bool.and_eq_true, decide_eq_true_eq]
    omega

theorem dpm_ne_of_century (since : 1970 ≤ tm.year + 1900) (february : tm.mon = 1)
    (century : (tm.year + 1900) % 400 = 0 ∨ (tm.year + 1900) % 400 = 300) :
    tm.dpm ≠ (monthLength tm.date.year tm.date.month : Int) := by
  obtain ⟨k, year⟩ : ∃ k : Nat, tm.year = k := ⟨tm.year.toNat, by omega⟩
  have date : tm.date = ⟨k + 1900, 1, tm.mday.toNat⟩ := by
    rw [Tm.date, year, february]
    rfl
  have shift := leap_shift k
  rw [iff_not_comm] at shift
  have differ := shift.mp (by omega)
  rw [Tm.dpm, date, february, year, isLeapyear_cast]
  cases here : leap k <;> cases there : leap (k + 1900) <;> rw [here, there] at differ
  · exact absurd rfl differ
  · simp [daysPerMonth, monthLength, there]
  · simp [monthLength, there]
  · exact absurd rfl differ

theorem Tm.Regular.accepted_iff (regular : tm.Regular) (since : 1970 ≤ tm.year + 1900) : tm.Accepted ↔ tm.Real := by
  constructor
  · intro accepted
    have mons := accepted.mon
    have mdays := accepted.mday
    refine ⟨mons.1, mdays.1, ⟨?_, ?_, ?_⟩, accepted.hour, accepted.min, accepted.sec⟩
    · simp only [Tm.date]
      omega
    · simp only [Tm.date]
      omega
    · have day : (tm.date.day : Int) = tm.mday := by
        simp only [Tm.date]
        omega
      rcases dpm_eq since mons with same | ⟨february, ⟨-, short, long⟩ | ⟨century, long, short⟩⟩
      · omega
      · omega
      · have notLast : tm.mday ≠ 29 := fun last =>
          regular.day ⟨february, last, .inr century⟩ accepted.year ⟨accepted.hour, accepted.min, accepted.sec⟩
        omega
  · intro real
    have month : tm.date.month = tm.mon.toNat := rfl
    have twelve := real.date.month
    have last := real.date.last
    have mon := real.mon
    have mday := real.mday
    have day : (tm.date.day : Int) = tm.mday := by
      simp only [Tm.date]
      omega
    have small := regular.small real
    have mons : 0 ≤ tm.mon ∧ tm.mon ≤ 11 := by omega
    refine ⟨small, mons, ⟨mday, ?_⟩, real.hour, real.min, real.sec⟩
    rcases dpm_eq since mons with same | ⟨february, ⟨century, short, long⟩ | ⟨-, long, short⟩⟩
    · omega
    · have notLast : tm.mday ≠ 29 := fun last =>
        regular.day ⟨february, last, .inl century⟩ small ⟨real.hour, real.min, real.sec⟩
      omega
    · omega

theorem Tm.Regular.eq_of_on (regular : tm.Regular) (since : 1970 ≤ tm.year + 1900) (on : tm.On n) :
    torTimegmImpl tm = some (86400 * n + tm.secondOfDay) := by
  obtain ⟨real, day⟩ := (on_iff since).mp on
  rw [torTimegmImpl_accepted since ((regular.accepted_iff since).mpr real), day]

theorem gmtime_on (t : Nat) : (gmtime t).On (t / 86400) := by
  have second : t % 86400 < 86400 := Nat.mod_lt _ (by decide)
  constructor <;> simp only [gmtime] <;> omega

theorem secondOfDay_gmtime (t : Nat) : (gmtime t).secondOfDay = (t % 86400 : Nat) := by
  simp only [Tm.secondOfDay, gmtime]
  omega

theorem parse_isSome_iff (since : 1970 ≤ tm.year + 1900) (regular : tm.Regular) {buf : Text} {f : Rfc1123}
    (scanned : scanRfc1123 buf = some f) (fields : f.tm = tm) :
    (parseRfc1123Time torTimegmImpl buf).isSome ↔ (torTimegmImpl tm).isSome := by
  rw [parseRfc1123Time, scanned]
  dsimp only
  split
  · rename_i refused
    have none : torTimegmImpl tm = none := by
      apply torTimegmImpl_refused since
      intro accepted
      have real := (regular.accepted_iff since).mp accepted
      have year := accepted.year
      have mon := accepted.mon
      have mday := accepted.mday
      have hour := accepted.hour
      have min := accepted.min
      have sec := accepted.sec
      have last := real.date.last
      subst fields
      have sameYear : f.tm.date.year = f.year := by
        simp only [Tm.date, Rfc1123.tm]
        omega
      have sameMonth : f.tm.date.month = f.mon := rfl
      have sameDay : f.tm.date.day = f.mday := rfl
      rw [sameYear, sameMonth, sameDay] at last
      simp only [Rfc1123.tm] at year mon mday hour min sec since
      have valid : f.invalidYear = false := by
        rw [Rfc1123.invalidYear, decide_eq_false (by omega), decide_eq_false (by omega)]
        rfl
      have length : f.dpm = monthLength f.year f.mon := by
        rw [Rfc1123.dpm, valid, isLeapyear_cast, daysPerMonth_length (y := f.year) (by omega)]
        by_cases february : f.mon = 1
        · cases isLeap : leap f.year <;> simp [february, monthLength, isLeap]
        · simp [february]
      rw [valid, length] at refused
      simp only [Bool.or_eq_true, decide_eq_true_eq, Bool.false_eq_true, false_or] at refused
      omega
    rw [none]
  · rw [fields]

theorem exact_of_regular (since : 1970 ≤ tm.year + 1900) (regular : tm.Regular) : tm.Exact where
  real _ on := regular.eq_of_on since on
  unreal none := by
    apply torTimegmImpl_refused since
    exact fun accepted => none (((regular.accepted_iff since).mp accepted).on since)
  increasing later since' regular' before sec t u time time' := by
    have accepted : tm.Accepted := by
      by_contra refused
      rw [torTimegmImpl_refused since refused] at time
      cases time
    have accepted' : later.Accepted := by
      by_contra refused
      rw [torTimegmImpl_refused since' refused] at time'
      cases time'
    rw [torTimegmImpl_accepted since accepted] at time
    rw [torTimegmImpl_accepted since' accepted'] at time'
    have real := (regular.accepted_iff since).mp accepted
    have days : tm.date.number < later.date.number := by
      refine Date.number_before real.date ?_ before
      simp only [Tm.date]
      omega
    have hour := accepted.hour
    have min := accepted.min
    have second := accepted.sec
    have hour' := accepted'.hour
    have min' := accepted'.min
    have second' := accepted'.sec
    have time := Option.some.inj time
    have time' := Option.some.inj time'
    simp only [Tm.day] at time time'
    rcases sec with plain | same
    · simp only [Tm.secondOfDay] at time time'
      omega
    · omega
  inverse t same := by
    have on := gmtime_on t
    rw [same] at on
    rw [regular.eq_of_on since on, ← same, secondOfDay_gmtime]
    congr 1
    omega
  rfc1123 _ _ scanned fields := parse_isSome_iff since regular scanned fields

/-- From 1970 on, a time is what its fields stand for, unless they stand for a year of more than 32 bits or for the
February 29 of a century that counting from 1900 takes for another one. -/
theorem timegm_exact_iff (tm : Tm) (since : 1970 ≤ tm.year + 1900) : tm.Exact ↔ tm.Regular := by
  refine ⟨fun exact => ⟨?_, ?_⟩, exact_of_regular since⟩
  · intro real
    obtain ⟨n, on⟩ := real.on since
    by_contra large
    have refused := torTimegmImpl_refused since fun accepted => large accepted.year
    rw [exact.real n on] at refused
    cases refused
  · rintro ⟨mon, mday, century⟩ small ⟨hour, min, sec⟩
    have mons : 0 ≤ tm.mon ∧ tm.mon ≤ 11 := by omega
    have day : (tm.date.day : Int) = tm.mday := by
      simp only [Tm.date]
      omega
    have apart : (tm.dpm = 28 ∧ monthLength tm.date.year tm.date.month = 29) ∨
        (tm.dpm = 29 ∧ monthLength tm.date.year tm.date.month = 28) := by
      rcases dpm_eq since mons with same | ⟨-, ⟨-, both⟩ | ⟨-, both⟩⟩
      · exact absurd same (dpm_ne_of_century since mon century)
      · exact .inl both
      · exact .inr both
    rcases apart with ⟨short, long⟩ | ⟨long, short⟩
    · have real : tm.Real := by
        refine ⟨mons.1, by omega, ⟨?_, by omega, by omega⟩, hour, min, sec⟩
        simp only [Tm.date]
        omega
      obtain ⟨n, on⟩ := real.on since
      have refused := torTimegmImpl_refused since fun accepted => by
        have last := accepted.mday.2
        omega
      rw [exact.real n on] at refused
      cases refused
    · have accepted : tm.Accepted := ⟨small, mons, ⟨by omega, by omega⟩, hour, min, sec⟩
      have none := exact.unreal fun ⟨n, on⟩ => by
        have last := ((on_iff since).mp on).1.date.last
        omega
      rw [torTimegmImpl_accepted since accepted] at none
      cases none

end Exact

theorem leap_day_exact : (⟨124, 1, 29, 12, 0, 0⟩ : Tm).Exact :=
  (timegm_exact_iff ⟨124, 1, 29, 12, 0, 0⟩ (by decide)).mpr
    ⟨fun _ => by decide, fun mistaken => absurd mistaken.2.2 (by decide)⟩

/-- The first second of February 29, 2000 is refused. -/
theorem leap_day_2000_refused : ¬ (⟨100, 1, 29, 0, 0, 0⟩ : Tm).Exact := by
  intro exact
  have real : (⟨100, 1, 29, 0, 0, 0⟩ : Tm).Real :=
    ⟨by decide, by decide, ⟨by decide, by decide, by decide⟩, by decide, by decide, by decide⟩
  obtain ⟨n, on⟩ := real.on (by decide)
  have refused : torTimegmImpl ⟨100, 1, 29, 0, 0, 0⟩ = none := by decide
  rw [exact.real n on] at refused
  cases refused

end TorJet.Encoding
