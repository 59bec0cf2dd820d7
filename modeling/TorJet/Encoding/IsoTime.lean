import TorJet.Encoding.TimeFmt
import TorJet.Net.Address
import TorJet.Net.CString

/-!
# ISO times

`format_iso_time_nospace` and `parse_iso_time_nospace`, with the `tor_timegm` of the platform.
-/

namespace TorJet.Encoding
open Base Net Calendar

/-- `tor_gmtime_r`: what `correct_tm` makes of the result of `gmtime`. -/
def torGmtime (t : Nat) : Tm :=
  let tm := gmtime t
  if 8099 < tm.year then ⟨8099, 11, 31, 23, 59, 59⟩ else tm

/-- `%m` and its kind of `strftime`. -/
def twoDigits (n : Nat) : Text := (decimalDigits n).leftpad 2 '0'

def isoText (year month day hour minute second : Nat) : Text :=
  decimalDigits year ++ '-' :: (twoDigits month ++ '-' :: (twoDigits day ++ 'T' :: (twoDigits hour ++
    ':' :: (twoDigits minute ++ ':' :: twoDigits second))))

def formatIsoTimeNospace (t : Nat) : Text :=
  let tm := torGmtime t
  isoText (tm.year + 1900).toNat (tm.mon + 1).toNat tm.mday.toNat tm.hour.toNat tm.min.toNat tm.sec.toNat

def literal (c : Char) : Text → Option Text
  | d :: rest => if d = c then some rest else none
  | [] => none

/-- `%c` -/
def anyChar : Text → Option (Char × Text)
  | c :: rest => some (c, rest)
  | [] => none

structure IsoTime where
  year : Nat
  month : Nat
  day : Nat
  separator : Char
  hour : Nat
  minute : Nat
  second : Nat

/-- `tor_sscanf` with `"%u-%2u-%2u%c%2u:%2u:%2u%c"`, when all but the last character match. -/
def scanIsoTime (cp : Text) : Option IsoTime := do
  let (year, cp) ← scanUnsigned maxScanfWidth cp
  let cp ← literal '-' cp
  let (month, cp) ← scanUnsigned 2 cp
  let cp ← literal '-' cp
  let (day, cp) ← scanUnsigned 2 cp
  let (separator, cp) ← anyChar cp
  let (hour, cp) ← scanUnsigned 2 cp
  let cp ← literal ':' cp
  let (minute, cp) ← scanUnsigned 2 cp
  let cp ← literal ':' cp
  let (second, cp) ← scanUnsigned 2 cp
  if cp = [] then some ⟨year, month, day, separator, hour, minute, second⟩ else none

def parseIsoTimeNospace (torTimegm : Tm → Option Int) (cp : Text) : Option Int := do
  let f ← scanIsoTime cp
  if f.separator ≠ 'T' then none
  else if f.year < 1970 ∨ f.month < 1 ∨ 12 < f.month ∨ f.day < 1 ∨ 31 < f.day ∨ 23 < f.hour ∨ 59 < f.minute ∨
      60 < f.second ∨ int32Max ≤ f.year then none
  else torTimegm ⟨f.year - 1900, (f.month : Int) - 1, f.day, f.hour, f.minute, f.second⟩

def lastTime : Nat := 253402300799

section Times
variable {digits rest : Text} {width n t : Nat}

theorem scanUnsigned_digits (some : digits ≠ []) (all : ∀ c ∈ digits, torIsdigit c = true) (short : digits.length ≤ width)
    (small : decimal digits < 2 ^ 32) (stops : ∀ c ∈ rest.head?, torIsdigit c = false) :
    scanUnsigned width (digits ++ rest) = Option.some (decimal digits, rest) := by
  have stopsEarly : ∀ c ∈ (rest.take (width - digits.length)).head?, torIsdigit c = false := by
    intro c mem
    rw [List.head?_take] at mem
    split at mem
    · cases mem
    · exact stops c mem
  have after : (rest.take (width - digits.length)).takeWhile torIsdigit = [] := by
    cases early : rest.take (width - digits.length) with
    | nil => rfl
    | cons c t =>
        rw [early] at stopsEarly
        rw [List.takeWhile_cons_of_neg (by rw [stopsEarly c rfl]; exact Bool.false_ne_true)]
  have read : ((digits ++ rest).take width).takeWhile torIsdigit = digits := by
    rw [List.take_append, List.take_of_length_le short, List.takeWhile_append_of_pos all, after, List.append_nil]
  rw [scanUnsigned, read, List.isEmpty_eq_false_iff.mpr some]
  rw [if_neg Bool.false_ne_true, if_neg (Nat.not_le.mpr small), List.drop_left]

theorem decimal_zeros (k : Nat) (t : Text) : decimal (List.replicate k '0' ++ t) = decimal t := by
  induction k with
  | zero => rfl
  | succ k ih => exact ih

theorem twoDigits_spec (small : n < 100) : twoDigits n ≠ [] ∧ (∀ c ∈ twoDigits n, torIsdigit c = true) ∧
    (twoDigits n).length ≤ 2 ∧ decimal (twoDigits n) = n := by
  have short : (decimalDigits n).length ≤ 2 := (Nat.length_toDigits_le_iff (by decide) (show 0 < 2 by decide)).mpr small
  have value : decimal (decimalDigits n) = n := decimal_toDigits n
  have size : (twoDigits n).length = 2 := List.length_leftpad.trans (Nat.max_eq_left short)
  refine ⟨fun empty => ?_, fun c mem => ?_, Nat.le_of_eq size, ?_⟩
  · rw [empty] at size
    cases size
  · rw [twoDigits, List.leftpad, List.mem_append, List.mem_replicate] at mem
    obtain ⟨-, rfl⟩ | mem := mem
    · rfl
    · exact torIsdigit_toDigits mem
  · rw [twoDigits, List.leftpad, decimal_zeros, value]

theorem scanUnsigned_twoDigits (small : n < 100) (stops : ∀ c ∈ rest.head?, torIsdigit c = false) :
    scanUnsigned 2 (twoDigits n ++ rest) = some (n, rest) := by
  obtain ⟨some, all, short, value⟩ := twoDigits_spec small
  rw [scanUnsigned_digits some all short (by rw [value]; omega) stops, value]

theorem scanUnsigned_year (small : n < 10000) (stops : ∀ c ∈ rest.head?, torIsdigit c = false) :
    scanUnsigned maxScanfWidth (decimalDigits n ++ rest) = some (n, rest) := by
  have value : decimal (decimalDigits n) = n := decimal_toDigits n
  have short : (decimalDigits n).length ≤ maxScanfWidth :=
    Nat.le_trans ((Nat.length_toDigits_le_iff (by decide) (show 0 < 4 by decide)).mpr small) (by decide)
  have some : decimalDigits n ≠ [] := Nat.toDigits_ne_nil
  have all : ∀ c ∈ decimalDigits n, torIsdigit c = true := fun _ => torIsdigit_toDigits
  rw [scanUnsigned_digits some all short (by rw [value]; omega) stops, value]

theorem read_bind {α β : Type} {x : Option α} {a : α} {f : α → Option β} (read : x = some a) : (x >>= f) = f a := by
  rw [read]
  rfl

theorem scanIsoTime_isoText {year month day hour minute second : Nat} (years : year < 10000) (months : month < 100)
    (days : day < 100) (hours : hour < 100) (minutes : minute < 100) (seconds : second < 100) :
    scanIsoTime (isoText year month day hour minute second) = some ⟨year, month, day, 'T', hour, minute, second⟩ := by
  have stops (c : Char) (other : torIsdigit c = false) (rest : Text) : ∀ d ∈ (c :: rest).head?, torIsdigit d = false :=
    fun d head => Option.some.inj head ▸ other
  have last := @scanUnsigned_twoDigits [] second seconds fun c head => by cases head
  rw [List.append_nil] at last
  have colon (rest : Text) : literal ':' (':' :: rest) = some rest := by rw [literal, if_pos rfl]
  have dash (rest : Text) : literal '-' ('-' :: rest) = some rest := by rw [literal, if_pos rfl]
  refine (read_bind (scanUnsigned_year years (stops '-' rfl _))).trans ?_
  refine (read_bind (dash _)).trans ?_
  refine (read_bind (scanUnsigned_twoDigits months (stops '-' rfl _))).trans ?_
  refine (read_bind (dash _)).trans ?_
  refine (read_bind (scanUnsigned_twoDigits days (stops 'T' rfl _))).trans ?_
  refine (read_bind (show anyChar ('T' :: _) = some ('T', _) from rfl)).trans ?_
  refine (read_bind (scanUnsigned_twoDigits hours (stops ':' rfl _))).trans ?_
  refine (read_bind (colon _)).trans ?_
  refine (read_bind (scanUnsigned_twoDigits minutes (stops ':' rfl _))).trans ?_
  refine (read_bind (colon _)).trans ?_
  exact (read_bind last).trans (if_pos rfl)

theorem monthLength_le (year month : Nat) : monthLength year month ≤ 31 := by
  rw [monthLength.eq_def]
  split
  · split <;> decide
  all_goals decide

def lastDate : Date := ⟨9999, 11, 31⟩

theorem lastDate_valid : lastDate.Valid := ⟨by decide, by decide, by decide⟩

theorem lastDate_number : epoch.later (lastTime / 86400) = lastDate := by
  have days : lastTime / 86400 = lastDate.number - epoch.number := by decide
  rw [days]
  exact Date.later_number epoch_valid lastDate_valid (by decide) (by decide) (by decide)

theorem later_year_le : (epoch.later (t / 86400)).year ≤ 9999 ↔ t ≤ lastTime := by
  have valid := Date.later_valid epoch_valid (t / 86400)
  have whole : t ≤ lastTime ↔ ¬ lastTime / 86400 < t / 86400 := by
    have size : lastTime = 253402300799 := rfl
    omega
  rw [whole, ← Date.later_before epoch_valid (by decide), lastDate_number, Date.Before]
  have month := valid.month
  have day := valid.last
  have long := monthLength_le (epoch.later (t / 86400)).year (epoch.later (t / 86400)).month
  have fields : lastDate.year = 9999 ∧ lastDate.month = 11 ∧ lastDate.day = 31 := ⟨rfl, rfl, rfl⟩
  omega

theorem torGmtime_eq (t : Nat) : torGmtime t = gmtime (min t lastTime) := by
  unfold torGmtime
  dsimp only
  have year : (8099 < (gmtime t).year) ↔ ¬ t ≤ lastTime := by
    rw [← later_year_le, gmtime]
    dsimp only
    omega
  split
  · rename_i large
    rw [Nat.min_eq_right (Nat.le_of_not_le (year.mp large)), gmtime, lastDate_number]
    decide
  · rename_i small
    rw [Nat.min_eq_left (not_not.mp (mt year.mpr small))]

theorem parseIsoTimeNospace_format {torTimegm : Tm → Option Int}
    (inverse : ∀ t ≤ lastTime, torTimegm (gmtime t) = some (t : Int)) (t : Nat) :
    parseIsoTimeNospace torTimegm (formatIsoTimeNospace t) = some ((min t lastTime : Nat) : Int) := by
  have small : min t lastTime ≤ lastTime := Nat.min_le_right _ _
  rw [formatIsoTimeNospace, torGmtime_eq, ← inverse _ small]
  generalize min t lastTime = u at small
  have valid := Date.later_valid epoch_valid (u / 86400)
  have year := later_year_le.mpr small
  have since := Date.later_year epoch (u / 86400)
  have month := valid.month
  have first := valid.first
  have last := valid.last
  have long := monthLength_le (epoch.later (u / 86400)).year (epoch.later (u / 86400)).month
  have start : epoch.year = 1970 := rfl
  rw [gmtime]
  dsimp only
  generalize epoch.later (u / 86400) = date at *
  have yearText : ((date.year : Int) - 1900 + 1900).toNat = date.year := by omega
  have monthText : ((date.month : Int) + 1).toNat = date.month + 1 := by omega
  obtain ⟨hour, hours, hourLt⟩ : ∃ h : Nat, ((u % 86400 : Nat) : Int) / 3600 = h ∧ h < 24 :=
    ⟨u % 86400 / 3600, by omega, by omega⟩
  obtain ⟨minute, minutes, minuteLt⟩ : ∃ m : Nat, ((u % 86400 : Nat) : Int) / 60 % 60 = m ∧ m < 60 :=
    ⟨u % 86400 / 60 % 60, by omega, by omega⟩
  obtain ⟨second, seconds, secondLt⟩ : ∃ s : Nat, ((u % 86400 : Nat) : Int) % 60 = s ∧ s < 60 :=
    ⟨u % 86400 % 60, by omega, by omega⟩
  rw [yearText, monthText, hours, minutes, seconds, Int.toNat_natCast, Int.toNat_natCast, Int.toNat_natCast,
    Int.toNat_natCast, parseIsoTimeNospace,
    scanIsoTime_isoText (by omega) (by omega) (by omega) (by omega) (by omega) (by omega), Option.bind_eq_bind,
      Option.bind_some]
  dsimp only
  have sizes : int32Max = 2147483647 := rfl
  rw [if_neg (by decide), if_neg (by omega)]
  congr 2
  omega

theorem formatIsoTimeNospace_black (t : Nat) : ∀ c ∈ formatIsoTimeNospace t, torIsspace c = false := by
  have number (n : Nat) : ∀ c ∈ decimalDigits n, torIsspace c = false :=
    fun c mem => digit_notSpace (torIsdigit_toDigits mem)
  have two (n : Nat) : ∀ c ∈ twoDigits n, torIsspace c = false := by
    intro c mem
    rw [twoDigits, List.leftpad, List.mem_append, List.mem_replicate] at mem
    obtain ⟨-, rfl⟩ | mem := mem
    · rfl
    · exact number n c mem
  rw [formatIsoTimeNospace, isoText]
  simp only [List.forall_mem_append, List.forall_mem_cons]
  exact ⟨number _, rfl, two _, rfl, two _, rfl, two _, rfl, two _, rfl, two _⟩

/-- `timegm` of a platform that has one, for the fields of a time. -/
def timegm (tm : Tm) : Option Int := some (86400 * tm.day + tm.secondOfDay)

theorem timegm_gmtime (t : Nat) : timegm (gmtime t) = some (t : Int) := by
  have on := gmtime_on t
  have since : 1970 ≤ (gmtime t).year + 1900 := by
    rw [on.year]
    exact Int.ofNat_le.mpr (Date.later_year epoch (t / 86400))
  rw [timegm, secondOfDay_gmtime, ← ((on_iff since).mp on).2]
  congr 1
  omega

end Times
end TorJet.Encoding
