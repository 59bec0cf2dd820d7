import Mathlib.Algebra.Group.Nat.Defs
import Mathlib.Data.List.TakeWhile
import TorJet.Net.CString

/-!
# Quoted strings

C strings with the escapes of the C language, as `esc_for_log` writes them and `unescape_string` reads them.
-/

namespace TorJet.Encoding
open Base Net

def IsCString (s : Text) : Prop := ∀ c ∈ s, 0 < c.toNat ∧ c.toNat < 256

instance (s : Text) : Decidable (IsCString s) :=
  List.decidableBAll (fun c : Char => 0 < c.toNat ∧ c.toNat < 256) s

def torIsprint (c : Char) : Bool := 32 ≤ c.toNat && c.toNat ≤ 126

def torIsodigit (c : Char) : Bool := '0' ≤ c && c ≤ '7'

def octalDigit (n : Nat) : Char := Char.ofNat ('0'.toNat + n % 8)

/-- `%03o` of a byte. -/
def octal3 (n : Nat) : Text := [octalDigit (n / 64), octalDigit (n / 8), octalDigit n]

/-- What `esc_for_log` writes for one character. -/
def escChar (c : Char) : Text :=
  if c = '\\' ∨ c = '"' ∨ c = '\'' then ['\\', c]
  else if c = '\n' then ['\\', 'n']
  else if c = '\t' then ['\\', 't']
  else if c = '\r' then ['\\', 'r']
  else if torIsprint c && c.toNat % 256 < 127 then [c]
  else '\\' :: octal3 (c.toNat % 256)

def escForLog (s : Text) : Text := '"' :: (s.flatMap escChar ++ ['"'])

def octalDigits (s : Text) : Text := (s.take 3).takeWhile torIsodigit

def octal (digits : Text) : Nat := digits.foldl (fun n c => n * 8 + digitToNum c) 0

/-- What is behind an escape, for the first loop of `unescape_string`. -/
def skipEscape : Text → Option Text
  | [] => none
  | c :: rest =>
      if c = 'x' ∨ c = 'X' then
        if (rest.take 2).length = 2 ∧ (rest.take 2).all torIsxdigit then some (rest.drop 2) else none
      else if torIsodigit c then some ((c :: rest).drop (octalDigits (c :: rest)).length)
      else if c = 'n' ∨ c = 'r' ∨ c = 't' ∨ c = '"' ∨ c = '\\' ∨ c = '\'' then some rest
      else none

def readEscape : Text → Option (Char × Text)
  | [] => none
  | c :: rest =>
      if c = 'n' then some ('\n', rest)
      else if c = 'r' then some ('\r', rest)
      else if c = 't' then some ('\t', rest)
      else if c = 'x' ∨ c = 'X' then
        if (rest.take 2).length = 2 ∧ (rest.take 2).all torIsxdigit then
          some (Char.ofNat (hexadecimal (rest.take 2)), rest.drop 2)
        else none
      else if torIsodigit c then
        let digits := octalDigits (c :: rest)
        if 255 < octal digits then none else some (Char.ofNat (octal digits), (c :: rest).drop digits.length)
      else if c = '\'' ∨ c = '"' ∨ c = '\\' ∨ c = '?' then some (c, rest)
      else none

theorem octalDigits_pos {c : Char} (rest : Text) (octal : torIsodigit c = true) :
    0 < (octalDigits (c :: rest)).length := by
  rw [octalDigits, List.take_succ_cons, List.takeWhile_cons_of_pos octal]
  exact Nat.zero_lt_succ _

theorem skipEscape_length {s rest : Text} (skipped : skipEscape s = some rest) : rest.length < s.length := by
  cases s with
  | nil => cases skipped
  | cons c s =>
      rw [skipEscape] at skipped
      split at skipped
      · split at skipped
        · obtain rfl := Option.some.inj skipped
          rw [List.length_drop, List.length_cons]
          omega
        · cases skipped
      · split at skipped
        · rename_i octal
          obtain rfl := Option.some.inj skipped
          have some := octalDigits_pos s octal
          rw [List.length_drop, List.length_cons]
          omega
        · split at skipped
          · obtain rfl := Option.some.inj skipped
            exact Nat.lt_succ_self _
          · cases skipped

theorem readEscape_length {s rest : Text} {c : Char} (read : readEscape s = some (c, rest)) :
    rest.length < s.length := by
  cases s with
  | nil => cases read
  | cons d s =>
      have plain {e : Char} (same : some (e, s) = some (c, rest)) : rest.length < (d :: s).length := by
        obtain rfl := (Prod.mk.inj (Option.some.inj same)).2
        exact Nat.lt_succ_self _
      rw [readEscape] at read
      split at read
      · exact plain read
      split at read
      · exact plain read
      split at read
      · exact plain read
      split at read
      · split at read
        · obtain rfl := (Prod.mk.inj (Option.some.inj read)).2
          rw [List.length_drop, List.length_cons]
          omega
        · cases read
      split at read
      · rename_i octal
        dsimp only at read
        split at read
        · cases read
        · obtain rfl := (Prod.mk.inj (Option.some.inj read)).2
          have some := octalDigits_pos s octal
          rw [List.length_drop, List.length_cons]
          omega
      split at read
      · exact plain read
      · cases read

/-- The first loop of `unescape_string`, after the opening quote: whether it gets to a closing quote. -/
def quoteCloses : Text → Bool
  | [] => false
  | c :: rest =>
      if c = '\n' then false
      else if c = '"' then true
      else if c = '\\' then
        match _skipped : skipEscape rest with
        | none => false
        | some rest => quoteCloses rest
      else quoteCloses rest
termination_by s => s.length
decreasing_by
  · have := skipEscape_length _skipped
    rw [List.length_cons]
    omega
  · exact Nat.lt_succ_self _

def copyQuoted : Text → Option (Text × Text)
  | [] => none
  | c :: rest =>
      if c = '"' then some ([], rest)
      else if c = '\\' then
        match _read : readEscape rest with
        | none => none
        | some (d, rest) => (copyQuoted rest).map fun read => (d :: read.1, read.2)
      else (copyQuoted rest).map fun read => (c :: read.1, read.2)
termination_by s => s.length
decreasing_by
  · have := readEscape_length _read
    rw [List.length_cons]
    omega
  · exact Nat.lt_succ_self _

/-- `unescape_string`: the bytes that it decodes, and what is behind the string. -/
def unescapeString : Text → Option (Text × Text)
  | '"' :: rest => if quoteCloses rest then copyQuoted rest else none
  | _ => none

section Octal
variable {n : Nat}

theorem digit_octalDigit (n : Nat) : torIsodigit (octalDigit n) = true ∧ digitToNum (octalDigit n) = n % 8 := by
  have below : ∀ k < 8, torIsodigit (Char.ofNat ('0'.toNat + k)) = true ∧
      digitToNum (Char.ofNat ('0'.toNat + k)) = k := by decide
  exact below (n % 8) (Nat.mod_lt n (by decide))

theorem octalDigits_octal3 (n : Nat) (tail : Text) : octalDigits (octal3 n ++ tail) = octal3 n := by
  rw [octalDigits, octal3]
  simp [(digit_octalDigit _).1]

theorem octal_octal3 (byte : n < 256) : octal (octal3 n) = n := by
  simp only [octal, octal3, List.foldl_cons, List.foldl_nil, (digit_octalDigit _).2]
  omega

end Octal

section RoundTrip
variable {c d : Char} {s tail : Text}

theorem escape_steps (skips : skipEscape s = some tail) (reads : readEscape s = some (d, tail)) :
    quoteCloses ('\\' :: s) = quoteCloses tail ∧
      copyQuoted ('\\' :: s) = (copyQuoted tail).map fun read => (d :: read.1, read.2) := by
  constructor
  · rw [quoteCloses, if_neg (by decide), if_neg (by decide), if_pos rfl]
    split
    · rename_i none
      rw [skips] at none
      cases none
    · rename_i rest found
      rw [skips] at found
      rw [Option.some.inj found]
  · rw [copyQuoted, if_neg (by decide), if_pos rfl]
    split
    · rename_i none
      rw [reads] at none
      cases none
    · rename_i e rest found
      rw [reads] at found
      obtain ⟨rfl, rfl⟩ := Prod.mk.inj (Option.some.inj found)
      rfl

theorem plain_steps (newline : c ≠ '\n') (quote : c ≠ '"') (backslash : c ≠ '\\') :
    quoteCloses (c :: tail) = quoteCloses tail ∧
      copyQuoted (c :: tail) = (copyQuoted tail).map fun read => (c :: read.1, read.2) := by
  constructor
  · rw [quoteCloses, if_neg newline, if_neg quote, if_neg backslash]
  · rw [copyQuoted, if_neg quote, if_neg backslash]

theorem escChar_steps (byte : c.toNat < 256) (tail : Text) :
    quoteCloses (escChar c ++ tail) = quoteCloses tail ∧
      copyQuoted (escChar c ++ tail) = (copyQuoted tail).map fun read => (c :: read.1, read.2) := by
  rw [escChar]
  split
  · rename_i special
    apply escape_steps <;> rcases special with rfl | rfl | rfl <;> rfl
  split
  · rename_i newline
    subst newline
    exact escape_steps rfl rfl
  split
  · rename_i tab
    subst tab
    exact escape_steps rfl rfl
  split
  · rename_i ret
    subst ret
    exact escape_steps rfl rfl
  rename_i special newline _ _
  rw [not_or, not_or] at special
  split
  · exact plain_steps newline special.2.1 special.1
  · have same : c.toNat % 256 = c.toNat := Nat.mod_eq_of_lt byte
    rw [same, List.cons_append]
    have digits := octalDigits_octal3 c.toNat tail
    have value := octal_octal3 byte
    have first := (digit_octalDigit (c.toNat / 64)).1
    have drop : (octal3 c.toNat ++ tail).drop (octal3 c.toNat).length = tail := List.drop_left
    have notHex : octalDigit (c.toNat / 64) ≠ 'x' ∧ octalDigit (c.toNat / 64) ≠ 'X' := by
      constructor <;> intro hex <;> rw [hex] at first <;> cases first
    have notLetter : octalDigit (c.toNat / 64) ≠ 'n' ∧ octalDigit (c.toNat / 64) ≠ 'r' ∧
        octalDigit (c.toNat / 64) ≠ 't' := by
      refine ⟨?_, ?_, ?_⟩ <;> intro letter <;> rw [letter] at first <;> cases first
    have whole : octal3 c.toNat ++ tail = octalDigit (c.toNat / 64) ::
        octalDigit (c.toNat / 8) :: octalDigit c.toNat :: tail := rfl
    apply escape_steps
    · rw [whole, skipEscape, if_neg (not_or.mpr notHex), if_pos first, ← whole, digits, drop]
    · rw [whole, readEscape, if_neg notLetter.1, if_neg notLetter.2.1, if_neg notLetter.2.2,
        if_neg (not_or.mpr notHex), if_pos first, ← whole]
      dsimp only
      rw [digits, value, if_neg (by omega), drop, Char.ofNat_toNat]

theorem closes_escaped (bytes : ∀ c ∈ s, c.toNat < 256) (tail : Text) :
    quoteCloses (s.flatMap escChar ++ '"' :: tail) = true ∧
      copyQuoted (s.flatMap escChar ++ '"' :: tail) = some (s, tail) := by
  induction s with
  | nil =>
      constructor
      · rw [List.flatMap_nil, List.nil_append, quoteCloses, if_neg (by decide), if_pos rfl]
      · rw [List.flatMap_nil, List.nil_append, copyQuoted, if_pos rfl]
  | cons c s ih =>
      obtain ⟨first, others⟩ := List.forall_mem_cons.mp bytes
      have step := escChar_steps first (s.flatMap escChar ++ '"' :: tail)
      rw [List.flatMap_cons, List.append_assoc, step.1, step.2, (ih others).2]
      exact ⟨(ih others).1, rfl⟩

theorem unescapeString_escForLog (bytes : ∀ c ∈ s, c.toNat < 256) (tail : Text) :
    unescapeString (escForLog s ++ tail) = some (s, tail) := by
  have whole : escForLog s ++ tail = '"' :: (s.flatMap escChar ++ '"' :: tail) := by simp [escForLog]
  obtain ⟨closes, copied⟩ := closes_escaped bytes tail
  rw [whole, unescapeString, if_pos closes, copied]

end RoundTrip

section Length
variable {s v rest : Text}

theorem copyQuoted_length (copied : copyQuoted s = some (v, rest)) : rest.length < s.length := by
  fun_induction copyQuoted s generalizing v rest with
  | case1 => cases copied
  | case2 tail =>
      obtain rfl := (Prod.mk.inj (Option.some.inj copied)).2
      exact Nat.lt_succ_self _
  | case3 => cases copied
  | case4 tail d after read _ ih =>
      obtain ⟨⟨out, last⟩, decoded, same⟩ := Option.map_eq_some_iff.mp copied
      dsimp only at same
      obtain rfl := (Prod.mk.inj same).2
      have shorter := readEscape_length read
      have := ih decoded
      rw [List.length_cons]
      omega
  | case5 c tail _ _ ih =>
      obtain ⟨⟨out, last⟩, decoded, same⟩ := Option.map_eq_some_iff.mp copied
      dsimp only at same
      obtain rfl := (Prod.mk.inj same).2
      have := ih decoded
      rw [List.length_cons]
      omega

theorem unescapeString_length (read : unescapeString s = some (v, rest)) : rest.length < s.length := by
  rw [unescapeString.eq_def] at read
  split at read
  · split at read
    · have shorter := copyQuoted_length read
      rw [List.length_cons]
      omega
    · cases read
  · cases read

theorem skipEscape_split {c : Char} {after : Text} (skipped : skipEscape s = some rest)
    (read : readEscape s = some (c, after)) : after = rest ∧ ∃ e, s = e ++ rest ∧ '\n' ∉ e := by
  cases s with
  | nil => cases skipped
  | cons d s =>
      have notNewline : d ≠ '\n' := by
        rintro rfl
        cases skipped
      have single (same : s = rest) : ∃ e, d :: s = e ++ rest ∧ '\n' ∉ e :=
        ⟨[d], by rw [same]; rfl, fun mem => notNewline (List.mem_singleton.mp mem).symm⟩
      rw [skipEscape] at skipped
      rw [readEscape] at read
      split at skipped
      · rename_i hex
        have notLetter : d ≠ 'n' ∧ d ≠ 'r' ∧ d ≠ 't' := by rcases hex with rfl | rfl <;> decide
        rw [if_neg notLetter.1, if_neg notLetter.2.1, if_neg notLetter.2.2, if_pos hex] at read
        split at skipped
        · rename_i two
          rw [if_pos two] at read
          obtain ⟨-, rfl⟩ := Prod.mk.inj (Option.some.inj read)
          obtain rfl := Option.some.inj skipped
          refine ⟨rfl, d :: s.take 2, by rw [List.cons_append, List.take_append_drop], ?_⟩
          intro mem
          rcases List.mem_cons.mp mem with first | digit
          · exact notNewline first.symm
          · have hex := List.all_eq_true.mp two.2 _ digit
            cases hex
        · cases skipped
      · rename_i notHex
        split at skipped
        · rename_i octal
          have notLetter : d ≠ 'n' ∧ d ≠ 'r' ∧ d ≠ 't' := by
            refine ⟨?_, ?_, ?_⟩ <;> rintro rfl <;> cases octal
          rw [if_neg notLetter.1, if_neg notLetter.2.1, if_neg notLetter.2.2, if_neg notHex, if_pos octal] at read
          dsimp only at read
          obtain rfl := Option.some.inj skipped
          split at read
          · cases read
          · obtain ⟨-, rfl⟩ := Prod.mk.inj (Option.some.inj read)
            refine ⟨rfl, octalDigits (d :: s), ?_, ?_⟩
            · have cut : octalDigits (d :: s) <+: d :: s := (List.takeWhile_prefix _).trans (List.take_prefix _ _)
              conv_lhs => rw [← List.take_append_drop (octalDigits (d :: s)).length (d :: s)]
              rw [← List.prefix_iff_eq_take.mp cut]
            · intro mem
              cases List.mem_takeWhile_imp mem
        · rename_i notOctal
          split at skipped
          · obtain rfl := Option.some.inj skipped
            refine ⟨?_, single rfl⟩
            split at read
            · exact (Prod.mk.inj (Option.some.inj read)).2.symm
            split at read
            · exact (Prod.mk.inj (Option.some.inj read)).2.symm
            split at read
            · exact (Prod.mk.inj (Option.some.inj read)).2.symm
            split at read
            · exact (Prod.mk.inj (Option.some.inj read)).2.symm
            · cases read
          · cases skipped

theorem cut_before {e r w line : Text} (split : w ++ '\n' :: line = e ++ r) (inside : '\n' ∉ e) :
    ∃ x, w = e ++ x ∧ r = x ++ '\n' :: line := by
  rcases List.append_eq_append_iff.mp split with ⟨x, rfl, tail⟩ | ⟨x, rfl, rfl⟩
  · cases x with
    | nil => exact ⟨[], by simp, tail.symm⟩
    | cons y x =>
        obtain ⟨rfl, -⟩ := List.cons.inj tail
        exact absurd (List.mem_append_right w List.mem_cons_self) inside
  · exact ⟨x, rfl, rfl⟩

theorem copyQuoted_oneLine {w line : Text} (closes : quoteCloses (w ++ '\n' :: line) = true)
    (copied : copyQuoted (w ++ '\n' :: line) = some (v, rest)) : v.length + rest.length < w.length + 1 + line.length ∧
      line.length < rest.length := by
  generalize length : w.length = n
  induction n using Nat.strongRecOn generalizing w v rest with
  | ind n ih =>
      subst length
      cases w with
      | nil =>
          rw [List.nil_append, quoteCloses, if_pos rfl] at closes
          cases closes
      | cons c w =>
          rw [List.cons_append, quoteCloses] at closes
          rw [List.cons_append, copyQuoted] at copied
          split at closes
          · cases closes
          split at closes
          · rename_i quote
            rw [if_pos quote] at copied
            obtain ⟨rfl, rfl⟩ := Prod.mk.inj (Option.some.inj copied)
            rw [List.length_append, List.length_cons, List.length_cons, List.length_nil]
            omega
          rename_i notQuote
          rw [if_neg notQuote] at copied
          split at closes
          · rename_i backslash
            rw [if_pos backslash] at copied
            split at closes
            · cases closes
            rename_i r skipped
            split at copied
            · cases copied
            rename_i d after read
            obtain ⟨⟨out, last⟩, decoded, same⟩ := Option.map_eq_some_iff.mp copied
            dsimp only at same
            obtain ⟨rfl, rfl⟩ := Prod.mk.inj same
            obtain ⟨rfl, e, split, inside⟩ := skipEscape_split skipped read
            obtain ⟨x, rfl, rfl⟩ := cut_before split inside
            have := ih x.length (by rw [List.length_cons, List.length_append]; omega) closes decoded rfl
            rw [List.length_cons, List.length_cons, List.length_append]
            omega
          · rename_i notBackslash
            rw [if_neg notBackslash] at copied
            obtain ⟨⟨out, last⟩, decoded, same⟩ := Option.map_eq_some_iff.mp copied
            dsimp only at same
            obtain ⟨rfl, rfl⟩ := Prod.mk.inj same
            have := ih w.length (Nat.lt_succ_self _) closes decoded rfl
            rw [List.length_cons, List.length_cons]
            omega

end Length

section Bytes
variable {c d : Char} {s v rest : Text} {n : Nat}

theorem toNat_byte (byte : n < 256) : (Char.ofNat n).toNat = n := by
  have valid : n.isValidChar := .inl (by omega)
  rw [Char.ofNat, dif_pos valid]
  rfl

theorem readEscape_bytes (bytes : ∀ c ∈ s, c.toNat < 256) (read : readEscape s = some (d, rest)) :
    d.toNat < 256 ∧ rest ⊆ s := by
  cases s with
  | nil => cases read
  | cons c s =>
      have plain {e : Char} (small : e.toNat < 256) (same : some (e, s) = some (d, rest)) :
          d.toNat < 256 ∧ rest ⊆ c :: s := by
        obtain ⟨rfl, rfl⟩ := Prod.mk.inj (Option.some.inj same)
        exact ⟨small, List.subset_cons_self _ _⟩
      rw [readEscape] at read
      split at read
      · exact plain (by decide) read
      split at read
      · exact plain (by decide) read
      split at read
      · exact plain (by decide) read
      split at read
      · split at read
        · rename_i two
          obtain ⟨rfl, rfl⟩ := Prod.mk.inj (Option.some.inj read)
          refine ⟨?_, fun x mem => List.mem_cons_of_mem _ (List.mem_of_mem_drop mem)⟩
          obtain ⟨h, l, digits⟩ := List.length_eq_two.mp two.1
          have both := two.2
          rw [digits, List.all_cons, List.all_cons, List.all_nil, Bool.and_true, Bool.and_eq_true] at both
          have high := hexDecodeDigit_lt both.1
          have low := hexDecodeDigit_lt both.2
          have small : hexadecimal [h, l] < 256 := by
            simp only [hexadecimal, List.foldl_cons, List.foldl_nil]
            omega
          rw [digits, toNat_byte small]
          exact small
        · cases read
      split at read
      · dsimp only at read
        split at read
        · cases read
        · rename_i small
          obtain ⟨rfl, rfl⟩ := Prod.mk.inj (Option.some.inj read)
          refine ⟨?_, fun x mem => List.mem_of_mem_drop mem⟩
          rw [toNat_byte (by omega)]
          omega
      split at read
      · exact plain (bytes c List.mem_cons_self) read
      · cases read

theorem copyQuoted_bytes (bytes : ∀ c ∈ s, c.toNat < 256) (copied : copyQuoted s = some (v, rest)) :
    (∀ c ∈ v, c.toNat < 256) ∧ rest ⊆ s := by
  fun_induction copyQuoted s generalizing v rest with
  | case1 => cases copied
  | case2 tail =>
      obtain ⟨rfl, rfl⟩ := Prod.mk.inj (Option.some.inj copied)
      exact ⟨fun c mem => absurd mem List.not_mem_nil, List.subset_cons_self _ _⟩
  | case3 => cases copied
  | case4 tail d after read _ ih =>
      obtain ⟨⟨out, last⟩, decoded, same⟩ := Option.map_eq_some_iff.mp copied
      dsimp only at same
      obtain ⟨rfl, rfl⟩ := Prod.mk.inj same
      have tailBytes := (List.forall_mem_cons.mp bytes).2
      obtain ⟨small, inside⟩ := readEscape_bytes tailBytes read
      obtain ⟨outBytes, lastInside⟩ := ih (fun c mem => tailBytes c (inside mem)) decoded
      exact ⟨List.forall_mem_cons.mpr ⟨small, outBytes⟩,
        List.Subset.trans (List.Subset.trans lastInside inside) (List.subset_cons_self _ _)⟩
  | case5 c tail _ _ ih =>
      obtain ⟨⟨out, last⟩, decoded, same⟩ := Option.map_eq_some_iff.mp copied
      dsimp only at same
      obtain ⟨rfl, rfl⟩ := Prod.mk.inj same
      obtain ⟨first, tailBytes⟩ := List.forall_mem_cons.mp bytes
      obtain ⟨outBytes, lastInside⟩ := ih tailBytes decoded
      exact ⟨List.forall_mem_cons.mpr ⟨first, outBytes⟩, List.Subset.trans lastInside (List.subset_cons_self _ _)⟩

theorem unescapeString_bytes (bytes : ∀ c ∈ s, c.toNat < 256) (read : unescapeString s = some (v, rest)) :
    (∀ c ∈ v, c.toNat < 256) ∧ rest ⊆ s := by
  rw [unescapeString.eq_def] at read
  split at read
  · split at read
    · obtain ⟨out, inside⟩ := copyQuoted_bytes (List.forall_mem_cons.mp bytes).2 read
      exact ⟨out, List.Subset.trans inside (List.subset_cons_self _ _)⟩
    · cases read
  · cases read

end Bytes
end TorJet.Encoding
