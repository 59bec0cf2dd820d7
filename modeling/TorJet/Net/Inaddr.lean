import TorJet.Net.Address

/-!
# Reading an IPv6 address word by word

`tor_inet_pton` as it goes through the text with pointers and writes into an array of eight words. It writes nowhere
else, none of its assertions fails, and it reads what `torInetPton6` says.
-/

namespace TorJet.Net.Inaddr
open Base

inductive Fault
  | outOfBounds
  | assertion
  deriving DecidableEq

/-- The state of the loop over the words; `words` is the array. -/
structure Scan where
  words : List Nat
  i : Nat
  setWords : Nat
  gapPos : Option Nat
  deriving DecidableEq

def setWord (words : List Nat) (i r : Nat) : Except Fault (List Nat) :=
  if i < words.length then .ok (words.set i r) else .error .outOfBounds

/-- `memmove` of words -/
def moveWords (words : List Nat) (dst src n : Nat) : Except Fault (List Nat) :=
  if dst + n ≤ words.length ∧ src + n ≤ words.length then
    .ok (words.take dst ++ (words.drop src).take n ++ words.drop (dst + n))
  else .error .outOfBounds

/-- `memset` of words to 0 -/
def zeroWords (words : List Nat) (pos n : Nat) : Except Fault (List Nat) :=
  if pos + n ≤ words.length then .ok (words.take pos ++ List.replicate n 0 ++ words.drop (pos + n))
  else .error .outOfBounds

def longMax : Nat := 2 ^ 63 - 1

/-- `strtol` in base 16, of a text that starts with a digit: the value and how many characters it takes. -/
def strtolHex (s : Text) : Nat × Nat :=
  let start := if s.head? = some '0' && (s[1]? = some 'x' || s[1]? = some 'X') && s[2]?.any torIsxdigit then 2 else 0
  let digits := (s.drop start).takeWhile torIsxdigit
  (min (hexadecimal digits) longMax, if digits.isEmpty then 0 else start + digits.length)

/-- The loop of `tor_inet_pton` from `src` to `eow`; `none` where it returns 0. -/
def scanWords (s : Text) (eow src : Nat) (w : Scan) : Except Fault (Option Scan) :=
  if src < eow then
    if 7 < w.i then .ok none
    else
      match s[src]? with
      | none => .ok none
      | some c =>
          if torIsxdigit c then
            let (r, n) := strtolHex (s.drop src)
            let next := src + n
            if n = 0 then .ok none
            else
              let len := if s[next]? = none then eow - src else n
              if 4 < len then .ok none
              else if 1 < len && !s[src + 1]?.any torIsxdigit then .ok none
              else if 65536 ≤ r then .error .assertion
              else do
                let words ← setWord w.words w.i r
                if s[next]? ≠ some ':' ∧ next ≠ eow then .ok none
                else scanWords s eow (next + 1) { w with words, i := w.i + 1, setWords := w.setWords + 1 }
          else if c = ':' ∧ 0 < w.i ∧ w.gapPos = none then scanWords s eow (src + 1) { w with gapPos := some w.i }
          else if c = ':' ∧ w.i = 0 ∧ src + 1 < eow ∧ s[src + 1]? = some ':' ∧ w.gapPos = none then
            scanWords s eow (src + 2) { w with gapPos := some w.i }
          else .ok none
  else .ok (some w)
termination_by eow - src

/-- The end of `tor_inet_pton`: zeros are put in place of the gap. -/
def closeGap (dot : Bool) (w : Scan) : Except Fault (Option (List Nat)) :=
  if 8 < w.setWords ∨ w.setWords = 8 ∧ w.gapPos ≠ none ∨ w.setWords < 8 ∧ w.gapPos = none then .ok none
  else
    match w.gapPos with
    | none => .ok (some w.words)
    | some gapPos =>
        let nToMove : Int := w.setWords - (if dot then 2 else 0) - gapPos
        let gapLen := 8 - w.setWords
        if nToMove < 0 then .error .assertion
        else do
          let words ← moveWords w.words (gapPos + gapLen) gapPos nToMove.toNat
          let words ← zeroWords words gapPos gapLen
          .ok (some words)

def backDigits (s : Text) : Nat → Nat
  | 0 => 0
  | eow + 1 => if s[eow + 1]?.any torIsdigit then backDigits s eow else eow + 1

/-- What `tor_inet_pton` does after the loop over the words. -/
def finish (dot : Bool) : Option Scan → Except Fault (Option (List Nat))
  | none => .ok none
  | some w => closeGap dot w

/-- `tor_inet_pton` for IPv6. -/
def torInetPton6 (s : Text) : Except Fault (Option (List Nat)) :=
  if 2 < s.length ∧ s[s.length - 1]? = some ':' ∧ s[s.length - 2]? ≠ some ':' then .ok none
  else
    let words := List.replicate 8 0xf8f8
    match s.idxOf? '.' with
    | none => do
        let w ← scanWords s s.length 0 ⟨words, 0, 0, none⟩
        finish false w
    | some 0 => .ok none
    | some (before + 1) =>
        let eow := backDigits s before
        if s[eow]? ≠ some ':' then .ok none
        else
          match scanQuad (s.drop (eow + 1)) with
          | none => .ok none
          | some bytes =>
              if bytes.any (255 < ·) then .ok none
              else do
                let words ← setWord words 6 (joinOctets (bytes.take 2))
                let words ← setWord words 7 (joinOctets (bytes.drop 2))
                let w ← scanWords s (eow + 1) 0 ⟨words, 0, 2, none⟩
                finish true w

/-! ## The array and the list of words -/

structure Stands (quad : List Nat) (w : Scan) (read : Words) : Prop where
  length : w.words.length = 8
  i : w.i = read.words.length
  few : w.i ≤ 8
  taken : w.words.take w.i = read.words
  setWords : w.setWords = w.i + quad.length
  gap : w.gapPos = read.gapPos
  inside : ∀ g ∈ read.gapPos, g ≤ w.i
  kept : w.i + quad.length ≤ 8 → w.words.drop (8 - quad.length) = quad

/-- The loop ends without a fault, and with what `readWords` gives. -/
def Agrees (quad : List Nat) (out : Except Fault (Option Scan)) (read : Option Words) : Prop :=
  ∃ got, out = .ok got ∧ Option.Rel (Stands quad) got read

section Arrays
variable {quad : List Nat} {w : Scan} {read : Words} {r : Nat}

theorem Stands.push (stands : Stands quad w read) (room : ¬ 7 < w.i) (r : Nat) :
    setWord w.words w.i r = .ok (w.words.set w.i r) ∧
      Stands quad { w with words := w.words.set w.i r, i := w.i + 1, setWords := w.setWords + 1 }
        { read with words := read.words ++ [r] } := by
  have inside : w.i < w.words.length := by
    rw [stands.length]
    omega
  refine ⟨if_pos inside, ?_⟩
  exact {
    length := by rw [List.length_set, stands.length]
    i := by rw [List.length_append, List.length_singleton, stands.i]
    few := by show w.i + 1 ≤ 8; omega
    taken := by
      show (w.words.set w.i r).take (w.i + 1) = read.words ++ [r]
      rw [List.take_add_one, List.getElem?_set_self inside, List.take_set_of_le (Nat.le_refl _), stands.taken]
      rfl
    setWords := by
      show w.setWords + 1 = w.i + 1 + quad.length
      rw [stands.setWords]
      omega
    gap := stands.gap
    inside := fun g mem => (stands.inside g mem).trans (Nat.le_succ _)
    kept := by
      intro fits
      have fits : w.i + 1 + quad.length ≤ 8 := fits
      show (w.words.set w.i r).drop (8 - quad.length) = quad
      rw [List.drop_set_of_lt (by omega), stands.kept (by omega)] }

theorem Stands.mark (stands : Stands quad w read) :
    Stands quad { w with gapPos := some w.i } { read with gapPos := some read.words.length } :=
  { stands with
    gap := congrArg some stands.i
    inside := fun g mem => by
      rw [← Option.some.inj mem, ← stands.i] }

theorem moveWords_zeroWords {words : List Nat} {gap len n : Nat} (fits : gap + len + n ≤ words.length) :
    (do
      let words ← moveWords words (gap + len) gap n
      let words ← zeroWords words gap len
      .ok (some words) : Except Fault (Option (List Nat))) =
      .ok (some (words.take gap ++ List.replicate len 0 ++ ((words.drop gap).take n ++ words.drop (gap + len + n)))) := by
  have front : (words.take (gap + len)).length = gap + len := List.length_take_of_le (by omega)
  have middle : ((words.drop gap).take n).length = n := List.length_take_of_le (by rw [List.length_drop]; omega)
  have moved : moveWords words (gap + len) gap n =
      .ok (words.take (gap + len) ++ ((words.drop gap).take n ++ words.drop (gap + len + n))) := by
    rw [moveWords, if_pos ⟨fits, by omega⟩, List.append_assoc]
  have least : min gap (gap + len) = gap := by omega
  have zeroed : zeroWords (words.take (gap + len) ++ ((words.drop gap).take n ++ words.drop (gap + len + n))) gap len =
      .ok (words.take gap ++ List.replicate len 0 ++ ((words.drop gap).take n ++ words.drop (gap + len + n))) := by
    rw [zeroWords, if_pos (by rw [List.length_append, front]; omega), List.take_append_of_le_length (by omega),
      List.take_take, least, List.drop_left' front]
  rw [moved]
  exact congrArg (Except.map some) zeroed

theorem closeGap_eq (stands : Stands quad w read) (dot : Bool) (two : ((if dot then 2 else 0 : Nat) : Int) = quad.length) :
    closeGap dot w = .ok (fillGap read quad) := by
  have set := stands.setWords
  have count : read.words.length + quad.length = w.setWords := by rw [set, stands.i]
  have two : ((if dot then 2 else 0 : Int)) = quad.length := by
    rw [← two]
    cases dot <;> rfl
  unfold closeGap fillGap
  rw [two, count, ← stands.gap]
  dsimp only
  cases gapPos : w.gapPos with
  | none =>
      by_cases eight : w.setWords = 8
      · have whole : read.words ++ quad = w.words := by
          have kept := stands.kept (by omega)
          have start : 8 - quad.length = w.i := by omega
          rw [start] at kept
          rw [← stands.taken]
          conv_lhs => rw [← kept]
          rw [List.take_append_drop]
        rw [if_neg (by simp [eight]), if_pos eight, whole]
      · rw [if_pos (by simp; omega), if_neg eight]
  | some gap =>
      by_cases less : w.setWords < 8
      · have inside := stands.inside gap (by rw [← stands.gap, gapPos]; rfl)
        have few := stands.few
        have move : ((w.setWords : Int) - quad.length - gap) = ((w.i - gap : Nat) : Int) := by omega
        have fits : gap + (8 - w.setWords) + (w.i - gap) ≤ w.words.length := by
          rw [stands.length]
          omega
        have before : read.words.take gap = w.words.take gap := by
          rw [← stands.taken, List.take_take]
          congr 1
          omega
        have after : read.words.drop gap = (w.words.drop gap).take (w.i - gap) := by rw [← stands.taken, List.drop_take]
        have behind : w.words.drop (gap + (8 - w.setWords) + (w.i - gap)) = quad := by
          rw [← stands.kept (by omega)]
          congr 1
          omega
        rw [if_neg (by simp; omega)]
        dsimp only
        rw [if_pos less, move, if_neg (by omega), Int.toNat_natCast, moveWords_zeroWords fits, before, after, behind, List.append_assoc _ _ quad]
      · rw [if_pos (by simp; omega)]
        dsimp only
        rw [if_neg less]

end Arrays
/-! ## The loop over the words -/

def Ends (s : Text) (eow : Nat) : Prop := eow = s.length ∨ eow ≤ s.length ∧ 0 < eow ∧ s[eow - 1]? = some ':'

def ahead (s : Text) (eow src : Nat) : Text := (s.drop src).take (eow - src)

section Loop
variable {s : Text} {eow src : Nat} {c : Char} {p : Char → Bool}

theorem Ends.le (ends : Ends s eow) : eow ≤ s.length := by
  obtain rfl | ⟨le, -⟩ := ends
  · exact Nat.le_refl _
  · exact le

theorem ahead_cons (less : src < eow) (first : s[src]? = some c) : ahead s eow src = c :: ahead s eow (src + 1) := by
  obtain ⟨inside, rfl⟩ := List.getElem?_eq_some_iff.mp first
  have step : eow - src = (eow - (src + 1)) + 1 := by omega
  rw [ahead, ahead, List.drop_eq_getElem_cons inside, step, List.take_succ_cons]

theorem ahead_length (ends : Ends s eow) (src : Nat) : (ahead s eow src).length = eow - src := by
  have le := ends.le
  rw [ahead, List.length_take, List.length_drop]
  omega

theorem ahead_drop (n : Nat) : (ahead s eow src).drop n = ahead s eow (src + n) := by
  rw [ahead, ahead, List.drop_take, List.drop_drop, Nat.sub_sub]

theorem ahead_head : (ahead s eow src).head? = some c ↔ src < eow ∧ s[src]? = some c := by
  rw [ahead, List.head?_take, List.head?_drop]
  split
  · simp
    omega
  · rename_i more
    rw [and_iff_right (by omega)]

theorem ahead_append (s : Text) (eow src : Nat) : ahead s eow src ++ s.drop (src + (eow - src)) = s.drop src := by
  rw [ahead, ← List.drop_drop, List.take_append_drop]

theorem takeWhile_ahead (ends : Ends s eow) (less : src < eow) (notColon : p ':' = false) :
    (s.drop src).takeWhile p = (ahead s eow src).takeWhile p ∧
      (eow = s.length ∨ src + ((ahead s eow src).takeWhile p).length < eow) := by
  have whole := ahead_append s eow src
  rw [Nat.add_sub_cancel' less.le] at whole
  obtain same | ⟨le, pos, colon⟩ := ends
  · rw [same, List.drop_length, List.append_nil] at whole
    rw [same, whole]
    exact ⟨rfl, .inl rfl⟩
  · have mem : ':' ∈ ahead s eow src := by
      rw [ahead]
      refine List.mem_of_getElem? (i := eow - 1 - src) ?_
      rw [List.getElem?_take_of_lt (by omega), List.getElem?_drop]
      rwa [Nat.add_sub_cancel' (by omega)]
    have short : ((ahead s eow src).takeWhile p).length ≠ (ahead s eow src).length := by
      intro same
      have all := (List.takeWhile_prefix p).eq_of_length same
      have holds := List.mem_takeWhile_imp (all ▸ mem)
      rw [notColon] at holds
      cases holds
    have cut : (ahead s eow src ++ s.drop eow).takeWhile p = (ahead s eow src).takeWhile p := by
      rw [List.takeWhile_append, if_neg short]
    rw [whole] at cut
    have shorter := (List.takeWhile_prefix p (l := ahead s eow src)).length_le
    rw [ahead_length (.inr ⟨le, pos, colon⟩)] at shorter short
    exact ⟨cut, .inr (by omega)⟩

theorem strtolHex_spec {t : Text} (digit : t.head?.any torIsxdigit = true) :
    strtolHex t = (min (hexadecimal (t.takeWhile torIsxdigit)) longMax, (t.takeWhile torIsxdigit).length) ∨
      t.takeWhile torIsxdigit = ['0'] ∧ (t[1]? = some 'x' ∨ t[1]? = some 'X') ∧
        3 ≤ (strtolHex t).2 ∧ (strtolHex t).2 ≤ t.length := by
  have nonempty : (t.takeWhile torIsxdigit).isEmpty = false := by
    cases t with
    | nil => cases digit
    | cons c t =>
        have digit : torIsxdigit c = true := digit
        rw [List.takeWhile_cons_of_pos digit]
        rfl
  by_cases hex : (t.head? = some '0' && (t[1]? = some 'x' || t[1]? = some 'X') && t[2]?.any torIsxdigit) = true
  · right
    have parts := hex
    rw [Bool.and_eq_true, Bool.and_eq_true, decide_eq_true_eq, Bool.or_eq_true, decide_eq_true_eq, decide_eq_true_eq] at parts
    obtain ⟨⟨zero, x⟩, next⟩ := parts
    obtain ⟨t, rfl⟩ := List.head?_eq_some_iff.mp zero
    cases t with
    | nil => simp at x
    | cons d t =>
        have notDigit : torIsxdigit d = false := by
          obtain x | x := x <;> cases x <;> rfl
        have ones : ('0' :: d :: t).takeWhile torIsxdigit = ['0'] := by
          rw [List.takeWhile_cons_of_pos (by rfl), List.takeWhile_cons_of_neg (by rw [notDigit]; exact Bool.false_ne_true)]
        refine ⟨ones, x, ?_⟩
        have digits : (t.takeWhile torIsxdigit).length ≤ t.length := (List.takeWhile_prefix _).length_le
        have first : 0 < (t.takeWhile torIsxdigit).length := by
          cases t with
          | nil => cases next
          | cons e t =>
              have next : torIsxdigit e = true := next
              rw [List.takeWhile_cons_of_pos next]
              exact Nat.succ_pos _
        have taken : (strtolHex ('0' :: d :: t)).2 = 2 + (t.takeWhile torIsxdigit).length := by
          unfold strtolHex
          dsimp only
          rw [if_pos hex]
          have some : (t.takeWhile torIsxdigit).isEmpty = false := by
            rw [List.isEmpty_eq_false_iff]
            exact List.ne_nil_of_length_pos first
          exact if_neg (by rw [show ('0' :: d :: t).drop 2 = t from rfl, some]; exact Bool.false_ne_true)
        rw [taken, List.length_cons, List.length_cons]
        omega
  · left
    unfold strtolHex
    dsimp only
    rw [if_neg hex, List.drop_zero, nonempty, Nat.zero_add]
    rfl

theorem hexadecimal_lt {t : Text} (digits : ∀ c ∈ t, torIsxdigit c = true) : hexadecimal t < 16 ^ t.length := by
  have step : ∀ (t : Text) (n m : Nat), (∀ c ∈ t, torIsxdigit c = true) → n < 16 ^ m →
      t.foldl (fun n c => n * 16 + hexDecodeDigit c) n < 16 ^ (m + t.length) := by
    intro t
    induction t with
    | nil => exact fun n m _ less => less
    | cons c t ih =>
        intro n m digits less
        obtain ⟨digit, others⟩ := List.forall_mem_cons.mp digits
        have small : hexDecodeDigit c < 16 := hexDecodeDigit_lt digit
        have total : m + (c :: t).length = (m + 1) + t.length := by
          rw [List.length_cons]
          omega
        rw [List.foldl_cons, total]
        refine ih _ _ others ?_
        rw [Nat.pow_succ]
        omega
  have run := step t 0 0 digits (by decide)
  rwa [Nat.zero_add] at run

theorem readWords_full {fuel : Nat} {rest : Text} {read : Words} (full : 7 < read.words.length) :
    readWords (fuel + 1) (c :: rest) read = none := by
  conv_lhs => unfold readWords
  exact if_pos full

theorem readWords_digit {fuel : Nat} {rest : Text} {read : Words} (room : ¬ 7 < read.words.length)
    (digit : torIsxdigit c = true) (digits : Text) (taken : (c :: rest).takeWhile torIsxdigit = digits) :
    readWords (fuel + 1) (c :: rest) read =
      if 4 < digits.length then none
      else if (c :: rest).drop digits.length = [] then some { read with words := read.words ++ [hexadecimal digits] }
      else if ((c :: rest).drop digits.length).head? = some ':' then
        readWords fuel ((c :: rest).drop digits.length).tail { read with words := read.words ++ [hexadecimal digits] }
      else none := by
  conv_lhs => unfold readWords
  rw [if_neg room, if_pos digit, taken]
  dsimp only
  split
  · rfl
  · split
    · rename_i ended
      rw [if_pos ended]
    · rename_i rest colon
      rw [if_neg (by rw [colon]; exact List.cons_ne_nil _ _), colon, List.head?_cons, if_pos rfl, List.tail_cons]
    · rename_i more notColon
      rw [if_neg more, if_neg]
      intro head
      obtain ⟨tail, same⟩ := List.head?_eq_some_iff.mp head
      exact notColon tail same

theorem readWords_colon {fuel : Nat} {rest : Text} {read : Words} (room : ¬ 7 < read.words.length)
    (other : ¬ torIsxdigit c = true) :
    readWords (fuel + 1) (c :: rest) read =
      if c = ':' ∧ read.gapPos = none then
        if read.words = [] then
          if rest.head? = some ':' then readWords fuel rest.tail { read with gapPos := some 0 } else none
        else readWords fuel rest { read with gapPos := some read.words.length }
      else none := by
  conv_lhs => unfold readWords
  rw [if_neg room, if_neg other]
  congr 2
  cases rest with
  | nil => rfl
  | cons d rest =>
      by_cases colon : d = ':'
      · subst colon
        rfl
      · rw [List.head?_cons, if_neg fun same => colon (Option.some.inj same)]
        split
        · rename_i same
          exact absurd (List.cons.inj same).1 colon
        · rfl

end Loop

section Scanning
variable {s : Text} {eow : Nat} {quad : List Nat}

theorem refused : Agrees quad (.ok none) none := ⟨_, rfl, .none⟩

def Scan.push (w : Scan) (r : Nat) : Scan :=
  { w with words := w.words.set w.i r, i := w.i + 1, setWords := w.setWords + 1 }

theorem scanWords_word {src : Nat} {w : Scan} {read : Words} {c : Char} {digits : Text} (ends : Ends s eow)
    (less : src < eow) (first : s[src]? = some c) (digit : torIsxdigit c = true) (room : ¬ 7 < w.i)
    (stands : Stands quad w read) (taken : (ahead s eow src).takeWhile torIsxdigit = digits)
    (value : strtolHex (s.drop src) = (min (hexadecimal digits) longMax, digits.length)) :
    scanWords s eow src w =
      if 4 < digits.length then .ok none
      else if ahead s eow (src + digits.length) = [] then .ok (some (w.push (hexadecimal digits)))
      else if (ahead s eow (src + digits.length)).head? = some ':' then
        scanWords s eow (src + digits.length + 1) (w.push (hexadecimal digits))
      else .ok none := by
  have bound := (takeWhile_ahead ends less (rfl : torIsxdigit ':' = false)).2
  have total := ahead_length ends src
  have le := ends.le
  have shorter := (List.takeWhile_prefix torIsxdigit (l := ahead s eow src)).length_le
  rw [taken] at bound shorter
  rw [total] at shorter
  have all : ∀ d ∈ digits, torIsxdigit d = true := fun d mem => List.mem_takeWhile_imp (taken ▸ mem)
  have pos : 0 < digits.length := by
    rw [← taken, ahead_cons less first, List.takeWhile_cons_of_pos digit]
    exact Nat.succ_pos _
  have len : (if s[src + digits.length]? = none then eow - src else digits.length) = digits.length := by
    split
    · rename_i ended
      rw [List.getElem?_eq_none_iff] at ended
      omega
    · rfl
  rw [scanWords, if_pos less, if_neg room, first]
  dsimp only
  rw [if_pos digit, value]
  dsimp only
  rw [if_neg (Nat.pos_iff_ne_zero.mp pos), len]
  by_cases long : 4 < digits.length
  · rw [if_pos long, if_pos long]
  have second : (1 < digits.length && !s[src + 1]?.any torIsxdigit) = false := by
    rw [Bool.and_eq_false_iff, decide_eq_false_iff_not, Bool.not_eq_false']
    by_cases more : 1 < digits.length
    swap
    · exact .inl more
    obtain ⟨rest, split⟩ := List.takeWhile_prefix torIsxdigit (l := ahead s eow src)
    have inside : digits[1]? = s[src + 1]? := by
      calc digits[1]?
        _ = (digits ++ rest)[1]? := (List.getElem?_append_left more).symm
        _ = (ahead s eow src)[1]? := by rw [← taken, split]
        _ = s[src + 1]? := by rw [ahead, List.getElem?_take_of_lt (by omega), List.getElem?_drop]
    refine .inr ?_
    rw [← inside, List.getElem?_eq_getElem more, Option.any_some]
    exact all _ (List.getElem_mem more)
  have small : hexadecimal digits < 65536 := by
    have bound := hexadecimal_lt all
    have most : 16 ^ digits.length ≤ 16 ^ 4 := Nat.pow_le_pow_right (by decide) (Nat.not_lt.mp long)
    omega
  have least : min (hexadecimal digits) longMax = hexadecimal digits := by
    unfold longMax
    omega
  have written := (stands.push room (hexadecimal digits)).1
  rw [if_neg long, if_neg long, second, if_neg Bool.false_ne_true, least, if_neg (Nat.not_le.mpr small), written]
  dsimp only [bind, Except.bind]
  by_cases ended : src + digits.length = eow
  · have done : ahead s eow (src + digits.length) = [] := by rw [ahead, ended, Nat.sub_self, List.take_zero]
    rw [if_neg fun both => both.2 ended, if_pos done, scanWords, if_neg (by omega)]
    rfl
  · have before : src + digits.length < eow := by omega
    obtain ⟨d, after⟩ : ∃ d, s[src + digits.length]? = some d :=
      ⟨s[src + digits.length], List.getElem?_eq_getElem (by omega)⟩
    rw [ahead_cons before after, if_neg (List.cons_ne_nil _ _), List.head?_cons, after]
    by_cases colon : d = ':'
    · rw [if_neg fun both => both.1 (congrArg _ colon), if_pos (congrArg _ colon)]
      rfl
    · rw [if_pos ⟨fun same => colon (Option.some.inj same), ended⟩, if_neg fun same => colon (Option.some.inj same)]

theorem scanWords_0x {src : Nat} {w : Scan} {c : Char} (ends : Ends s eow) (less : src < eow)
    (first : s[src]? = some c) (digit : torIsxdigit c = true) (room : ¬ 7 < w.i)
    (x : s[src + 1]? = some 'x' ∨ s[src + 1]? = some 'X') (three : 3 ≤ (strtolHex (s.drop src)).2)
    (most : (strtolHex (s.drop src)).2 ≤ (s.drop src).length) :
    src + 1 < eow ∧ scanWords s eow src w = .ok none := by
  have notX : s[src + 1]?.any torIsxdigit = false := by obtain x | x := x <;> rw [x] <;> rfl
  rw [List.length_drop] at most
  have more : src + 1 < eow := by
    obtain rfl | ⟨-, pos, colon⟩ := ends
    · omega
    · have apart : src ≠ eow - 1 := by
        rintro rfl
        rw [first] at colon
        rw [Option.some.inj colon] at digit
        cases digit
      omega
  refine ⟨more, ?_⟩
  rw [scanWords, if_pos less, if_neg room, first]
  dsimp only
  rw [if_pos digit]
  generalize strtolHex (s.drop src) = value at three most
  obtain ⟨r, n⟩ := value
  dsimp only at three most ⊢
  have two : 1 < if s[src + n]? = none then eow - src else n := by split <;> omega
  generalize (if s[src + n]? = none then eow - src else n) = len at two
  rw [if_neg (by omega), notX, decide_eq_true two]
  by_cases long : 4 < len
  · rw [if_pos long]
  · rw [if_neg long, if_pos (by rfl)]

theorem scanWords_agrees (ends : Ends s eow) (src : Nat) (w : Scan) (read : Words) (fuel : Nat)
    (stands : Stands quad w read) (enough : eow - src ≤ fuel) :
    Agrees quad (scanWords s eow src w) (readWords fuel (ahead s eow src) read) := by
  induction fuel using Nat.strongRecOn generalizing src w read with
  | ind fuel ih =>
      by_cases less : src < eow
      swap
      · have done : ahead s eow src = [] := by rw [ahead, Nat.sub_eq_zero_of_le (Nat.not_lt.mp less), List.take_zero]
        rw [scanWords, if_neg less, done]
        cases fuel <;> exact ⟨_, rfl, .some stands⟩
      obtain ⟨fuel, rfl⟩ : ∃ more, fuel = more + 1 := ⟨fuel - 1, by omega⟩
      have inside : src < s.length := by
        have := ends.le
        omega
      obtain ⟨c, first⟩ : ∃ c, s[src]? = some c := ⟨s[src], List.getElem?_eq_getElem inside⟩
      have cut := ahead_cons less first
      by_cases full : 7 < w.i
      · rw [scanWords, if_pos less, if_pos full, cut, readWords_full (by rw [← stands.i]; exact full)]
        exact refused
      have room : ¬ 7 < read.words.length := by rwa [← stands.i]
      by_cases digit : torIsxdigit c = true
      · have same := (takeWhile_ahead ends less (rfl : torIsxdigit ':' = false)).1
        generalize taken : (ahead s eow src).takeWhile torIsxdigit = digits at same
        have after : (c :: ahead s eow (src + 1)).drop digits.length = ahead s eow (src + digits.length) := by
          rw [← cut, ahead_drop]
        have head : (s.drop src).head?.any torIsxdigit = true := by rw [List.head?_drop, first, Option.any_some, digit]
        rw [cut, readWords_digit room digit digits (cut ▸ taken), after]
        obtain value | ⟨ones, x, three, most⟩ := strtolHex_spec head
        · rw [same] at value
          have pos : 0 < digits.length := by
            rw [← taken, cut, List.takeWhile_cons_of_pos digit]
            exact Nat.succ_pos _
          have pushed := (stands.push full (hexadecimal digits)).2
          rw [scanWords_word ends less first digit full stands taken value]
          split_ifs
          · exact refused
          · exact ⟨_, rfl, .some pushed⟩
          · have rest : (ahead s eow (src + digits.length)).tail = ahead s eow (src + digits.length + 1) := by
              rw [← List.drop_one, ahead_drop]
            rw [rest]
            exact ih fuel (Nat.lt_succ_self _) _ _ _ pushed (by omega)
          · exact refused
        · rw [same] at ones
          rw [List.getElem?_drop] at x
          obtain ⟨more, none⟩ := scanWords_0x ends less first digit full x three most
          have one : digits.length = 1 := by rw [ones]; rfl
          obtain ⟨d, at_, notColon⟩ : ∃ d, s[src + 1]? = some d ∧ d ≠ ':' := by
            obtain x | x := x
            · exact ⟨_, x, by decide⟩
            · exact ⟨_, x, by decide⟩
          rw [none, one, ahead_cons more at_, List.head?_cons, if_neg (List.cons_ne_nil _ _),
            if_neg fun colon => notColon (Option.some.inj colon), ite_self]
          exact refused
      rw [scanWords, if_pos less, if_neg full, first]
      dsimp only
      rw [if_neg digit, cut, readWords_colon room digit, ← stands.gap]
      have next := @ahead_head s eow (src + 1) ':'
      by_cases unmarked : c = ':' ∧ w.gapPos = none
      swap
      · rw [if_neg unmarked, if_neg fun all => unmarked ⟨all.1, all.2.2⟩, if_neg fun all => unmarked ⟨all.1, all.2.2.2.2⟩]
        exact refused
      rw [if_pos unmarked]
      obtain ⟨colon, gap⟩ := unmarked
      by_cases zero : w.i = 0
      · have empty : read.words = [] := by rw [← List.length_eq_zero_iff, ← stands.i, zero]
        have marked := stands.mark
        rw [← stands.i, zero] at marked
        rw [if_neg fun all => absurd zero (Nat.pos_iff_ne_zero.mp all.2.1), if_pos empty]
        by_cases second : (ahead s eow (src + 1)).head? = some ':'
        · obtain ⟨more, colon₂⟩ := next.mp second
          rw [if_pos ⟨colon, zero, more, colon₂, gap⟩, if_pos second, ahead_cons more colon₂, List.tail_cons]
          rw [zero]
          exact ih fuel (Nat.lt_succ_self _) (src + 2) _ _ marked (by omega)
        · rw [if_neg fun all => second (next.mpr ⟨all.2.2.1, all.2.2.2.1⟩), if_neg second]
          exact refused
      · have pos : 0 < w.i := Nat.pos_of_ne_zero zero
        have nonempty : read.words ≠ [] := by
          rw [← List.length_pos_iff, ← stands.i]
          exact pos
        rw [if_pos ⟨colon, pos, gap⟩, if_neg nonempty]
        exact ih fuel (Nat.lt_succ_self _) (src + 1) _ _ stands.mark (by omega)

end Scanning

/-! ## The whole -/

section Whole
variable {s : Text} {quad : List Nat} {out : Except Fault (Option Scan)} {read : Option Words}

theorem Agrees.close (agrees : Agrees quad out read) (dot : Bool)
    (two : ((if dot then 2 else 0 : Nat) : Int) = quad.length) :
    out >>= finish dot = .ok (read.bind fun w => fillGap w quad) := by
  obtain ⟨got, rfl, rel⟩ := agrees
  cases rel with
  | none => rfl
  | some stands => exact closeGap_eq stands dot two

theorem stands_initial {words : List Nat} (length : words.length = 8)
    (kept : words.drop (8 - quad.length) = quad) : Stands quad ⟨words, 0, quad.length, none⟩ ⟨[], none⟩ where
  length := length
  i := rfl
  few := Nat.zero_le _
  taken := rfl
  setWords := (Nat.zero_add _).symm
  gap := rfl
  inside := fun g mem => by cases mem
  kept := fun _ => kept

theorem backDigits_spec (k : Nat) (less : k < s.length) :
    backDigits s k ≤ k ∧
      (((s.take (k + 1)).rdropWhile torIsdigit).getLast? = some ':' ↔ s[backDigits s k]? = some ':') ∧
      (s[backDigits s k]? = some ':' → (s.take (k + 1)).rdropWhile torIsdigit = s.take (backDigits s k + 1)) := by
  have last (k : Nat) (less : k < s.length) : s.take (k + 1) = s.take k ++ [s[k]] := by
    rw [List.take_add_one, List.getElem?_eq_getElem less]
    rfl
  have here (k : Nat) (less : k < s.length) (other : ¬ torIsdigit s[k] = true) :
      ((s.take (k + 1)).rdropWhile torIsdigit).getLast? = s[k]? ∧ (s.take (k + 1)).rdropWhile torIsdigit = s.take (k + 1) := by
    have same : (s.take (k + 1)).rdropWhile torIsdigit = s.take (k + 1) := by
      rw [last k less, List.rdropWhile_concat_neg _ _ _ other]
    rw [same]
    refine ⟨?_, rfl⟩
    rw [last k less, List.getLast?_concat, List.getElem?_eq_getElem less]
  induction k with
  | zero =>
      by_cases digit : torIsdigit s[0] = true
      · have gone : (s.take 1).rdropWhile torIsdigit = [] := by
          rw [last 0 less, List.take_zero, List.rdropWhile_concat_pos _ _ _ digit]
          rfl
        have notColon : s[0]? ≠ some ':' := by
          rw [List.getElem?_eq_getElem less]
          intro colon
          rw [Option.some.inj colon] at digit
          cases digit
        rw [backDigits, gone]
        exact ⟨Nat.le_refl _, iff_of_false (fun colon => by cases colon) notColon, fun colon => absurd colon notColon⟩
      · obtain ⟨ends, same⟩ := here 0 less digit
        rw [backDigits, ends]
        exact ⟨Nat.le_refl _, Iff.rfl, fun _ => same⟩
  | succ k ih =>
      have inside : s[k + 1]? = some s[k + 1] := List.getElem?_eq_getElem less
      rw [backDigits, inside, Option.any_some]
      by_cases digit : torIsdigit s[k + 1] = true
      · rw [if_pos digit, last (k + 1) less, List.rdropWhile_concat_pos _ _ _ digit]
        obtain ⟨le, rest⟩ := ih (by omega)
        exact ⟨le.trans (Nat.le_succ k), rest⟩
      · obtain ⟨ends, same⟩ := here (k + 1) less digit
        rw [if_neg digit, ends]
        exact ⟨Nat.le_refl _, Iff.rfl, fun _ => same⟩

theorem torInetPton6_eq (s : Text) : torInetPton6 s = .ok (Net.torInetPton6 s) := by
  have colons : (2 < s.length ∧ s[s.length - 1]? = some ':' ∧ s[s.length - 2]? ≠ some ':') ↔
      (2 < s.length ∧ s.getLast? = some ':' ∧ s.dropLast.getLast? ≠ some ':') := by
    refine and_congr_right fun long => ?_
    rw [List.getLast?_eq_getElem?, List.getLast?_eq_getElem?, List.length_dropLast, List.getElem?_dropLast,
      if_pos (by omega), Nat.sub_sub]
  unfold torInetPton6 Net.torInetPton6
  rw [if_congr colons rfl rfl]
  split
  · rfl
  dsimp only
  cases dot : s.idxOf? '.' with
  | none =>
      have initial : Stands [] ⟨List.replicate 8 0xf8f8, 0, 0, none⟩ ⟨[], none⟩ := stands_initial rfl rfl
      have agrees := scanWords_agrees (.inl rfl) 0 _ _ s.length initial (Nat.le_refl _)
      have all : ahead s s.length 0 = s := by rw [ahead, List.drop_zero, Nat.sub_zero, List.take_length]
      rw [all] at agrees
      exact agrees.close false rfl
  | some k =>
      cases k with
      | zero => rfl
      | succ k =>
          have less : k < s.length := by
            obtain ⟨inside, -⟩ := List.idxOf?_eq_some_iff.mp dot
            omega
          obtain ⟨le, ends, same⟩ := backDigits_spec k less
          dsimp only
          by_cases colon : s[backDigits s k]? = some ':'
          swap
          · rw [if_pos colon, if_pos fun last => colon (ends.mp last)]
          have eow : (s.take (backDigits s k + 1)).length = backDigits s k + 1 := List.length_take_of_le (by omega)
          rw [if_neg (not_not.mpr colon), if_neg (not_not.mpr (ends.mpr colon)), same colon, eow]
          cases quad : scanQuad (s.drop (backDigits s k + 1)) with
          | none => rfl
          | some octets =>
              dsimp only [bind, Option.bind]
              by_cases big : octets.any (255 < ·) = true
              · rw [if_pos big, if_pos big]
              rw [if_neg big, if_neg big]
              generalize joinOctets (octets.take 2) = sixth
              generalize joinOctets (octets.drop 2) = seventh
              have start : Stands [sixth, seventh]
                  ⟨[0xf8f8, 0xf8f8, 0xf8f8, 0xf8f8, 0xf8f8, 0xf8f8, sixth, seventh], 0, 2, none⟩ ⟨[], none⟩ :=
                stands_initial rfl rfl
              have ends : Ends s (backDigits s k + 1) := .inr ⟨by omega, Nat.succ_pos _, colon⟩
              have agrees := scanWords_agrees ends 0 _ _ (backDigits s k + 1) start (Nat.le_refl _)
              have all : ahead s (backDigits s k + 1) 0 = s.take (backDigits s k + 1) := rfl
              rw [all] at agrees
              exact agrees.close true rfl

end Whole
end TorJet.Net.Inaddr
