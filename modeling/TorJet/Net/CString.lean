import Mathlib.Algebra.Group.Nat.Defs
import TorJet.Base.Spans
import TorJet.Base.Text

/-!
# C strings

The string functions that Tor's parsers are written with, on texts that stand for the bytes up to the
terminating NUL.
-/

namespace TorJet.Net
open Base

def cstr (t : Text) : Text := t.takeWhile (· ≠ '\x00')

def torIsspace (c : Char) : Bool := (9 ≤ c.toNat && c.toNat ≤ 13) || c = ' '

def torIsdigit (c : Char) : Bool := '0' ≤ c && c ≤ '9'

def torIsalpha (c : Char) : Bool := ('a' ≤ c && c ≤ 'z') || ('A' ≤ c && c ≤ 'Z')

def torIsxdigit (c : Char) : Bool := torIsdigit c || ('a' ≤ c && c ≤ 'f') || ('A' ≤ c && c ≤ 'F')

def digitToNum (c : Char) : Nat := c.toNat - '0'.toNat

def hexDecodeDigit (c : Char) : Nat :=
  if torIsdigit c then digitToNum c
  else if 'a' ≤ c then c.toNat - 'a'.toNat + 10 else c.toNat - 'A'.toNat + 10

def eatWhitespaceNoNl (s : Text) : Text := s.dropWhile fun c => c = ' ' || c = '\t' || c = '\r'

def sizeTCeiling : Nat := 9223372036854775791

/-- `find_whitespace`: the text before the first white space or `#`, and the text from there on. -/
def findWhitespace (s : Text) : Text × Text :=
  s.span fun c => !(c = '#' || c = ' ' || c = '\r' || c = '\n' || c = '\t')

def strcmpstart (s start : Text) : Bool := start.isPrefixOf s

/-- `strcmp`, on bytes. -/
def strcmp : Text → Text → Int
  | [], [] => 0
  | [], _ :: _ => -1
  | _ :: _, [] => 1
  | a :: s, b :: t => if a = b then strcmp s t else (a.toNat : Int) - b.toNat

def strcasecmp (a b : Text) : Bool := a.map Char.toLower = b.map Char.toLower

def strcasecmpstart (s start : Text) : Bool := (start.map Char.toLower).isPrefixOf (s.map Char.toLower)

def stringIsCIdentifier : Text → Bool
  | [] => false
  | c :: rest =>
      (torIsalpha c || c = '_') && rest.all fun d => torIsalpha d || torIsdigit d || d = '_'

/-- `smartlist_split_string` without a separator, with `SPLIT_SKIP_SPACE|SPLIT_IGNORE_BLANK`. -/
def splitSpace (s : Text) : List Text :=
  ((s.splitOnP fun c => c = '\t' || c = ' ').map fun item =>
    (item.dropWhile torIsspace).rdropWhile torIsspace).filter (!·.isEmpty)

def decimal (digits : Text) : Nat := digits.foldl (fun n c => n * 10 + digitToNum c) 0

def hexadecimal (digits : Text) : Nat := digits.foldl (fun n c => n * 16 + hexDecodeDigit c) 0

/-- `%u` of `tor_sscanf`, of at most `width` digits. -/
def scanUnsigned (width : Nat) (s : Text) : Option (Nat × Text) :=
  let digits := (s.take width).takeWhile torIsdigit
  if digits.isEmpty then none
  else if 2 ^ 32 ≤ decimal digits then none
  else some (decimal digits, s.drop digits.length)

/-- A sign and decimal digits, as `strtol` and its kind read them: the sign, the value and what is left. -/
def strtolDecimal (s : Text) : Option (Bool × Nat × Text) :=
  let s := s.dropWhile torIsspace
  let (negative, s) :=
    match s with
    | '-' :: rest => (true, rest)
    | '+' :: rest => (false, rest)
    | _ => (false, s)
  let digits := s.takeWhile torIsdigit
  if digits.isEmpty then none else some (negative, decimal digits, s.drop digits.length)

/-- `tor_parse_long` of the whole text in base 10, with 0 for an error; the bounds are those of a `long`. -/
def torParseLong (s : Text) (min max : Int) : Int :=
  match strtolDecimal s with
  | some (negative, n, []) =>
      let r : Int := if negative then -n else n
      if r < min ∨ max < r then 0 else r
  | _ => 0

/-- `tor_parse_uint64` in base 10 with `next` given: the value when it is in bounds, and what is left. -/
def torParseUint64 (s : Text) (min max : Nat) : Option Nat × Text :=
  match strtolDecimal s with
  | none => (none, s)
  | some (negative, n, rest) =>
      let r := if negative then (2 ^ 64 - n) % 2 ^ 64 else n
      (if 2 ^ 64 ≤ n ∨ r < min ∨ max < r then none else some r, rest)

/-- `tor_memstr` and `buf_find_string_offset`: the first place where the text occurs. -/
def findString (needle : Text) : Text → Option Nat
  | [] => if needle = [] then some 0 else none
  | c :: t => if needle.isPrefixOf (c :: t) then some 0 else (findString needle t).map (· + 1)

section Digits
variable {n : Nat} {rest : Text} {c : Char}

theorem decimal_toDigits (n : Nat) : decimal (Nat.toDigits 10 n) = n := by
  have swap : decimal (Nat.toDigits 10 n) = Nat.ofDigitChars 10 (Nat.toDigits 10 n) 0 := by
    rw [decimal, Nat.ofDigitChars_eq_foldl]
    congr 1
    funext m d
    rw [digitToNum, Nat.mul_comm]
  rw [swap, Nat.ofDigitChars_ten_toDigits]

theorem torIsdigit_toDigits (mem : c ∈ Nat.toDigits 10 n) : torIsdigit c = true := by
  have digit := Nat.isDigit_of_mem_toDigits (by decide) (by decide) mem
  rw [Char.isDigit, Bool.and_eq_true, decide_eq_true_eq, decide_eq_true_eq] at digit
  rw [torIsdigit, Bool.and_eq_true, decide_eq_true_eq, decide_eq_true_eq]
  exact digit

theorem takeWhile_toDigits (stops : ∀ c ∈ rest.head?, torIsdigit c = false) :
    (Nat.toDigits 10 n ++ rest).takeWhile torIsdigit = Nat.toDigits 10 n := by
  have after : rest.takeWhile torIsdigit = [] := by
    cases rest with
    | nil => rfl
    | cons c rest => rw [List.takeWhile_cons_of_neg (by rw [stops c rfl]; exact Bool.false_ne_true)]
  rw [List.takeWhile_append_of_pos fun _ => torIsdigit_toDigits, after, List.append_nil]

theorem hexDecodeDigit_lt (digit : torIsxdigit c = true) : hexDecodeDigit c < 16 := by
  simp only [torIsxdigit, torIsdigit, Bool.or_eq_true, Bool.and_eq_true, decide_eq_true_eq, Char.le_def,
    UInt32.le_iff_toNat_le] at digit
  simp only [hexDecodeDigit, torIsdigit, digitToNum, Bool.and_eq_true, decide_eq_true_eq, Char.le_def,
    UInt32.le_iff_toNat_le]
  have codes : '0'.val.toNat = 48 ∧ '9'.val.toNat = 57 ∧ 'a'.val.toNat = 97 ∧ 'f'.val.toNat = 102 ∧
      'A'.val.toNat = 65 ∧ 'F'.val.toNat = 70 := by decide
  simp only [Char.toNat]
  split
  · omega
  · split <;> omega

end Digits

section Compare
variable {s t u : Text}

theorem strcmp_swap (s t : Text) : strcmp t s = -strcmp s t := by
  induction s generalizing t with
  | nil => cases t <;> rfl
  | cons a s ih =>
      cases t with
      | nil => rfl
      | cons b t =>
          rw [strcmp, strcmp]
          split
          · rename_i same
            rw [if_pos same.symm, ih]
          · rename_i other
            rw [if_neg (Ne.symm other)]
            omega

theorem strcmp_eq_zero : strcmp s t = 0 ↔ s = t := by
  induction s generalizing t with
  | nil => cases t <;> simp [strcmp]
  | cons a s ih =>
      cases t with
      | nil => simp [strcmp]
      | cons b t =>
          rw [strcmp]
          split
          · rename_i same
            rw [ih, List.cons.injEq, and_iff_right same]
          · rename_i other
            have differ : a.toNat ≠ b.toNat := fun same => other (Char.toNat_inj.mp same)
            constructor
            · omega
            · intro same
              exact absurd (List.cons.inj same).1 other

theorem strcmp_trans (first : strcmp s t ≤ 0) (second : strcmp t u ≤ 0) : strcmp s u ≤ 0 := by
  induction s generalizing t u with
  | nil => cases u <;> simp [strcmp]
  | cons a s ih =>
      cases t with
      | nil => simp [strcmp] at first
      | cons b t =>
          cases u with
          | nil => simp [strcmp] at second
          | cons c u =>
              rw [strcmp] at first second ⊢
              split at first
              · rename_i same
                subst same
                split at second
                · rename_i last
                  rw [if_pos last]
                  exact ih first second
                · rename_i last
                  rw [if_neg last]
                  exact second
              · rename_i other
                split at second
                · rename_i same
                  subst same
                  rw [if_neg other]
                  exact first
                · rename_i next
                  rw [if_neg]
                  · omega
                  · rintro rfl
                    have same : a.toNat = b.toNat := by omega
                    exact other (Char.toNat_inj.mp same)

end Compare

section Find
variable {needle t rest : Text} {i : Nat}

theorem findString_le (found : findString needle t = some i) : i + needle.length ≤ t.length := by
  induction t generalizing i with
  | nil =>
      rw [findString] at found
      split at found
      · rename_i empty
        obtain rfl := Option.some.inj found
        simp [empty]
      · cases found
  | cons c t ih =>
      rw [findString] at found
      split at found
      · rename_i prefixed
        obtain rfl := Option.some.inj found
        have le := (List.isPrefixOf_iff_prefix.mp prefixed).length_le
        omega
      · obtain ⟨j, there, rfl⟩ := Option.map_eq_some_iff.mp found
        have le := ih there
        rw [List.length_cons]
        omega

theorem findString_append (found : findString needle t = some i) :
    findString needle (t ++ rest) = some i := by
  induction t generalizing i with
  | nil =>
      rw [findString] at found
      split at found
      · rename_i empty
        subst empty
        obtain rfl := Option.some.inj found
        cases rest <;> rfl
      · cases found
  | cons c t ih =>
      have le := findString_le found
      rw [List.length_cons] at le
      rw [findString] at found
      rw [List.cons_append, findString]
      split at found
      · rename_i prefixed
        rw [if_pos, found]
        have longer := (List.isPrefixOf_iff_prefix.mp prefixed).trans (List.prefix_append _ rest)
        exact List.isPrefixOf_iff_prefix.mpr longer
      · rename_i other
        obtain ⟨j, there, rfl⟩ := Option.map_eq_some_iff.mp found
        rw [if_neg, ih there]
        · rfl
        · intro prefixed
          apply other
          have whole := List.isPrefixOf_iff_prefix.mp prefixed
          rw [← List.cons_append] at whole
          apply List.isPrefixOf_iff_prefix.mpr
          apply List.prefix_of_prefix_length_le whole (List.prefix_append _ rest)
          rw [List.length_cons]
          omega

theorem findString_short {part : Text} (found : findString needle t = some i)
    (last : i + needle.length = t.length) (whole : part ++ rest = t) (more : rest ≠ []) :
    findString needle part = none := by
  cases here : findString needle part with
  | none => rfl
  | some j =>
      have same : findString needle (part ++ rest) = some j := findString_append here
      rw [whole, found] at same
      obtain rfl := Option.some.inj same
      have le := findString_le here
      have longer : 0 < rest.length := List.length_pos_iff.mpr more
      have sum := congrArg List.length whole
      rw [List.length_append] at sum
      omega

end Find
end TorJet.Net

/-!
## Numbers as `strtol` reads them

White space, a sign and decimal digits, and what is behind them.
-/

namespace TorJet.Net
open Base

def IsNumber (negative : Bool) (n : Nat) (s : Text) : Prop :=
  ∃ blanks sign digits, s = blanks ++ (sign ++ digits) ∧ (∀ c ∈ blanks, torIsspace c = true) ∧
    (if negative then sign = ['-'] else sign = [] ∨ sign = ['+']) ∧ digits ≠ [] ∧ (∀ c ∈ digits, torIsdigit c = true) ∧
      decimal digits = n

section Numbers
variable {s rest blanks digits : Text} {c : Char} {negative : Bool} {n : Nat}

theorem digit_notSpace (digit : torIsdigit c = true) : torIsspace c = false := by
  rw [torIsdigit, Bool.and_eq_true, decide_eq_true_eq, Char.le_def, UInt32.le_iff_toNat_le] at digit
  have code : 48 ≤ c.toNat := digit.1
  rw [torIsspace, Bool.or_eq_false_iff, Bool.and_eq_false_iff, decide_eq_false_iff_not, decide_eq_false_iff_not,
    decide_eq_false_iff_not]
  refine ⟨.inr (by omega), fun blank => ?_⟩
  rw [blank] at code
  exact absurd code (by decide)

def readSign : Text → Bool × Text
  | '-' :: rest => (true, rest)
  | '+' :: rest => (false, rest)
  | s => (false, s)

theorem readSign_spec (s : Text) :
    ∃ sign, s = sign ++ (readSign s).2 ∧ if (readSign s).1 then sign = ['-'] else sign = [] ∨ sign = ['+'] := by
  unfold readSign
  split
  · exact ⟨['-'], rfl, rfl⟩
  · exact ⟨['+'], rfl, .inr rfl⟩
  · exact ⟨[], rfl, .inl rfl⟩

theorem readSign_other (minus : c ≠ '-') (plus : c ≠ '+') : readSign (c :: s) = (false, c :: s) := by
  unfold readSign
  split
  · rename_i eq
    exact absurd (List.cons.inj eq).1 minus
  · rename_i eq
    exact absurd (List.cons.inj eq).1 plus
  · rfl

theorem readSign_append {sign : Text} (isSign : if negative then sign = ['-'] else sign = [] ∨ sign = ['+'])
    (digit : s.head?.any torIsdigit = true) : readSign (sign ++ s) = (negative, s) := by
  cases negative with
  | true =>
      obtain rfl : sign = ['-'] := isSign
      rfl
  | false =>
      obtain rfl | rfl : sign = [] ∨ sign = ['+'] := isSign
      · cases s with
        | nil => cases digit
        | cons c s => exact readSign_other (by rintro rfl; cases digit) (by rintro rfl; cases digit)
      · rfl

theorem strtolDecimal_eq (s : Text) :
    strtolDecimal s =
      if ((readSign (s.dropWhile torIsspace)).2.takeWhile torIsdigit).isEmpty then none
      else
        some ((readSign (s.dropWhile torIsspace)).1, decimal ((readSign (s.dropWhile torIsspace)).2.takeWhile torIsdigit),
          (readSign (s.dropWhile torIsspace)).2.drop ((readSign (s.dropWhile torIsspace)).2.takeWhile torIsdigit).length) := by
  unfold strtolDecimal
  dsimp only
  generalize s.dropWhile torIsspace = t
  obtain _ | ⟨c, t⟩ := t
  · rfl
  by_cases minus : c = '-'
  · subst minus
    rfl
  by_cases plus : c = '+'
  · subst plus
    rfl
  split
  · rename_i eq
    exact absurd (List.cons.inj eq).1 minus
  · rename_i eq
    exact absurd (List.cons.inj eq).1 plus
  · rw [readSign_other minus plus]

theorem strtolDecimal_iff :
    strtolDecimal s = some (negative, n, rest) ↔
      ∃ number, s = number ++ rest ∧ IsNumber negative n number ∧ ∀ c ∈ rest.head?, torIsdigit c = false := by
  rw [strtolDecimal_eq]
  constructor
  · intro read
    obtain ⟨sign, split, isSign⟩ := readSign_spec (s.dropWhile torIsspace)
    generalize readSign (s.dropWhile torIsspace) = signed at read split isSign
    obtain ⟨sgn, t⟩ := signed
    dsimp only at read split isSign
    split at read
    · cases read
    · rename_i some
      simp only [Option.some.injEq, Prod.mk.injEq] at read
      obtain ⟨rfl, rfl, rfl⟩ := read
      rw [drop_takeWhile]
      refine ⟨s.takeWhile torIsspace ++ (sign ++ t.takeWhile torIsdigit), ?_, ⟨_, sign, _, rfl, ?_, isSign, ?_, ?_, rfl⟩,
        dropWhile_stops torIsdigit t⟩
      · rw [List.append_assoc, List.append_assoc, List.takeWhile_append_dropWhile, ← split, List.takeWhile_append_dropWhile]
      · exact fun c => List.mem_takeWhile_imp
      · exact fun empty => some (List.isEmpty_iff.mpr empty)
      · exact fun c => List.mem_takeWhile_imp
  · rintro ⟨number, rfl, ⟨blanks, sign, digits, rfl, spaces, isSign, nonempty, all, rfl⟩, stops⟩
    obtain ⟨d, ds, rfl⟩ := List.exists_cons_of_ne_nil nonempty
    have digit : torIsdigit d = true := all d List.mem_cons_self
    have first : ∀ c ∈ (sign ++ (d :: ds ++ rest)).head?, torIsspace c = false := by
      have signs : sign = ['-'] ∨ sign = [] ∨ sign = ['+'] := by
        cases negative with
        | true => exact .inl isSign
        | false => exact .inr isSign
      obtain rfl | rfl | rfl := signs
      · exact fun c mem => by obtain rfl := Option.some.inj mem; rfl
      · exact fun c mem => by obtain rfl := Option.some.inj mem; exact digit_notSpace digit
      · exact fun c mem => by obtain rfl := Option.some.inj mem; rfl
    have signed : readSign ((blanks ++ (sign ++ d :: ds) ++ rest).dropWhile torIsspace) = (negative, d :: ds ++ rest) := by
      rw [List.append_assoc, List.append_assoc, dropWhile_append spaces first]
      exact readSign_append isSign digit
    rw [signed]
    dsimp only
    rw [takeWhile_append all stops, List.drop_left]
    rfl

theorem torParseLong_ne_zero {max : Int} :
    (torParseLong s 1 max).toNat ≠ 0 ↔ ∃ n, IsNumber false n s ∧ 1 ≤ n ∧ (n : Int) ≤ max := by
  unfold torParseLong
  split
  · rename_i negative m read
    obtain ⟨number, split, isNumber, -⟩ := strtolDecimal_iff.mp read
    rw [List.append_nil] at split
    subst split
    dsimp only
    have inside : (if (if negative = true then -(m : Int) else m) < 1 ∨ max < (if negative = true then -(m : Int) else m) then
        0 else (if negative = true then -(m : Int) else m)).toNat ≠ 0 ↔ negative = false ∧ 1 ≤ m ∧ (m : Int) ≤ max := by
      cases negative with
      | true =>
          simp only [if_true, Bool.true_eq_false, false_and, iff_false, not_not]
          split <;> omega
      | false =>
          simp only [Bool.false_eq_true, if_false, true_and]
          split <;> omega
    rw [inside]
    constructor
    · rintro ⟨rfl, low, high⟩
      exact ⟨m, isNumber, low, high⟩
    · rintro ⟨n, isNumber', low, high⟩
      have again : strtolDecimal s = some (false, n, []) :=
        strtolDecimal_iff.mpr ⟨s, (List.append_nil s).symm, isNumber', fun c mem => by cases mem⟩
      rw [again] at read
      simp only [Option.some.injEq, Prod.mk.injEq] at read
      obtain ⟨rfl, rfl, -⟩ := read
      exact ⟨rfl, low, high⟩
  · rename_i other
    refine iff_of_false (by simp) ?_
    rintro ⟨n, isNumber, -, -⟩
    have read : strtolDecimal s = some (false, n, []) :=
      strtolDecimal_iff.mpr ⟨s, (List.append_nil s).symm, isNumber, fun c mem => by cases mem⟩
    exact other _ _ read

end Numbers
end TorJet.Net
