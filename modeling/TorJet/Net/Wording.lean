import TorJet.Base.Spans
import TorJet.Net.Codec

/-!
# How the words of an IPv6 address are read

The loop of `tor_inet_pton` as a relation between the text and what is read so far, and what a colon and one more word
behind an address do to it.
-/

namespace TorJet.Net
open Base

def IsWord (s : Text) : Prop := s ≠ [] ∧ (∀ c ∈ s, torIsxdigit c = true) ∧ s.length ≤ 4

inductive Reads : Text → Words → Words → Prop
  | nil (w : Words) : Reads [] w w
  | last {word : Text} {w : Words} (isWord : IsWord word) (room : w.words.length ≤ 7) :
      Reads word w (w.push [hexadecimal word])
  | word {word rest : Text} {w w' : Words} (isWord : IsWord word) (room : w.words.length ≤ 7)
      (more : Reads rest (w.push [hexadecimal word]) w') : Reads (word ++ ':' :: rest) w w'
  | start {rest : Text} {w w' : Words} (first : w.words = []) (single : w.gapPos = none)
      (more : Reads rest { w with gapPos := some 0 } w') : Reads (':' :: ':' :: rest) w w'
  | gap {rest : Text} {w w' : Words} (later : w.words ≠ []) (room : w.words.length ≤ 7) (single : w.gapPos = none)
      (more : Reads rest { w with gapPos := some w.words.length } w') : Reads (':' :: rest) w w'

section Loop
variable {n : Nat} {s rest word : Text} {w w' : Words}

theorem colon_notXdigit : torIsxdigit ':' = false := by decide

theorem IsWord.head (isWord : IsWord word) : ∃ c t, word = c :: t ∧ torIsxdigit c = true := by
  obtain ⟨c, t, rfl⟩ := List.exists_cons_of_ne_nil isWord.1
  exact ⟨c, t, rfl, isWord.2.1 c List.mem_cons_self⟩

theorem IsWord.noColon (isWord : IsWord word) : ':' ∉ word := fun mem => by
  have digit := isWord.2.1 ':' mem
  rw [colon_notXdigit] at digit
  cases digit

def readAfter (n : Nat) (w : Words) : Text → Option Words
  | [] => some w
  | ':' :: rest => readWords n rest w
  | _ => none

theorem readWords_xdigit {c : Char} (digit : torIsxdigit c = true) :
    readWords (n + 1) (c :: rest) w =
      if 7 < w.words.length then none
      else if 4 < ((c :: rest).takeWhile torIsxdigit).length then none
      else
        readAfter n (w.push [hexadecimal ((c :: rest).takeWhile torIsxdigit)]) ((c :: rest).dropWhile torIsxdigit) := by
  rw [readWords.eq_def]
  dsimp only
  rw [if_pos digit, drop_takeWhile]
  rfl

theorem readWords_colon :
    readWords (n + 1) (':' :: rest) w =
      if 7 < w.words.length then none
      else if w.gapPos ≠ none then none
      else if w.words = [] then
        if rest.head? = some ':' then readWords n rest.tail { w with gapPos := some 0 } else none
      else readWords n rest { w with gapPos := some w.words.length } := by
  have noDigit : ¬ torIsxdigit ':' = true := by rw [colon_notXdigit]; exact Bool.false_ne_true
  rw [readWords.eq_def]
  dsimp only
  rw [if_neg noDigit]
  by_cases full : 7 < w.words.length
  · rw [if_pos full, if_pos full]
  rw [if_neg full, if_neg full]
  by_cases single : w.gapPos = none
  · rw [if_pos ⟨rfl, single⟩, if_neg (not_not.mpr single)]
    obtain _ | ⟨c, rest⟩ := rest
    · rfl
    by_cases colon : c = ':'
    · subst colon
      rfl
    · by_cases first : w.words = []
      · have other : ¬ (c :: rest).head? = some ':' := fun same => colon (Option.some.inj same)
        rw [if_pos first, if_pos first, if_neg other]
        split
        · rename_i same
          exact absurd (List.cons.inj same).1 colon
        · rfl
      · rw [if_neg first, if_neg first]
  · rw [if_neg (not_and_of_not_right _ single), if_pos single]

theorem readWords_other {c : Char} (noDigit : ¬ torIsxdigit c = true) (noColon : c ≠ ':') :
    readWords (n + 1) (c :: rest) w = none := by
  rw [readWords.eq_def]
  dsimp only
  rw [if_neg noDigit, if_neg (not_and_of_not_left _ noColon), ite_self]

theorem readWords_word (isWord : IsWord word) (room : w.words.length ≤ 7) :
    readWords (n + 1) (word ++ ':' :: rest) w = readWords n rest (w.push [hexadecimal word]) := by
  obtain ⟨c, t, rfl, digit⟩ := isWord.head
  have stops : ∀ d ∈ (':' :: rest).head?, torIsxdigit d = false := fun d mem => by
    obtain rfl := Option.some.inj mem
    exact colon_notXdigit
  have taken := takeWhile_append isWord.2.1 stops
  have dropped := dropWhile_append isWord.2.1 stops
  rw [List.cons_append] at taken dropped ⊢
  rw [readWords_xdigit digit, taken, dropped, if_neg (by omega), if_neg (Nat.not_lt.mpr isWord.2.2), readAfter]

theorem readWords_last (isWord : IsWord word) (room : w.words.length ≤ 7) :
    readWords (n + 1) word w = some (w.push [hexadecimal word]) := by
  obtain ⟨c, t, rfl, digit⟩ := isWord.head
  have taken : (c :: t).takeWhile torIsxdigit = c :: t := List.takeWhile_eq_self_iff.mpr isWord.2.1
  have dropped : (c :: t).dropWhile torIsxdigit = [] := List.dropWhile_eq_nil_iff.mpr isWord.2.1
  rw [readWords_xdigit digit, taken, dropped, if_neg (by omega), if_neg (Nat.not_lt.mpr isWord.2.2), readAfter]

theorem readWords_iff (enough : s.length ≤ n) : readWords n s w = some w' ↔ Reads s w w' := by
  constructor
  · intro read
    induction n generalizing s w with
    | zero =>
        obtain rfl := List.length_eq_zero_iff.mp (Nat.le_zero.mp enough)
        obtain rfl : w = w' := Option.some.inj read
        exact .nil w
    | succ n ih =>
        obtain _ | ⟨c, rest⟩ := s
        · obtain rfl : w = w' := Option.some.inj read
          exact .nil w
        have enough' : rest.length ≤ n := Nat.le_of_succ_le_succ enough
        by_cases digit : torIsxdigit c = true
        · rw [readWords_xdigit digit] at read
          split at read
          · cases read
          rename_i room
          split at read
          · cases read
          rename_i short
          have whole := List.takeWhile_append_dropWhile (p := torIsxdigit) (l := c :: rest)
          have isWord : IsWord ((c :: rest).takeWhile torIsxdigit) := by
            refine ⟨?_, fun d => List.mem_takeWhile_imp, Nat.not_lt.mp short⟩
            rw [List.takeWhile_cons_of_pos digit]
            exact List.cons_ne_nil _ _
          generalize (c :: rest).takeWhile torIsxdigit = word at *
          generalize (c :: rest).dropWhile torIsxdigit = after at *
          cases after with
          | nil =>
              rw [← whole, List.append_nil, ← Option.some.inj read]
              exact .last isWord (Nat.not_lt.mp room)
          | cons d after =>
              by_cases colon : d = ':'
              · subst colon
                rw [← whole]
                refine .word isWord (Nat.not_lt.mp room) (ih ?_ read)
                have lengths := congrArg List.length whole
                rw [List.length_append, List.length_cons, List.length_cons] at lengths
                have nonempty := List.length_pos_iff.mpr isWord.1
                omega
              · unfold readAfter at read
                split at read
                · rename_i empty
                  cases empty
                · rename_i same
                  exact absurd (List.cons.inj same).1 colon
                · cases read
        by_cases colon : c = ':'
        · subst colon
          rw [readWords_colon] at read
          split at read
          · cases read
          rename_i room
          split at read
          · cases read
          rename_i single
          rw [not_not] at single
          split at read
          · rename_i first
            split at read
            · rename_i second
              obtain ⟨rest, rfl⟩ := List.head?_eq_some_iff.mp second
              exact .start first single (ih (Nat.le_of_succ_le enough') read)
            · cases read
          · rename_i later
            exact .gap later (Nat.not_lt.mp room) single (ih enough' read)
        · rw [readWords_other digit colon] at read
          cases read
  · intro reads
    induction reads generalizing n with
    | nil => cases n <;> rfl
    | last isWord room =>
        have nonempty := List.length_pos_iff.mpr isWord.1
        obtain ⟨n, rfl⟩ : ∃ m, n = m + 1 := ⟨n - 1, by omega⟩
        exact readWords_last isWord room
    | word isWord room _ ih =>
        rw [List.length_append, List.length_cons] at enough
        obtain ⟨n, rfl⟩ : ∃ m, n = m + 1 := ⟨n - 1, by omega⟩
        rw [readWords_word isWord room]
        exact ih (by omega)
    | start first single _ ih =>
        rw [List.length_cons, List.length_cons] at enough
        obtain ⟨n, rfl⟩ : ∃ m, n = m + 1 := ⟨n - 1, by omega⟩
        rw [readWords_colon, if_neg (by rw [first]; decide), if_neg (not_not.mpr single), if_pos first, List.head?_cons,
          if_pos rfl, List.tail_cons]
        exact ih (by omega)
    | gap later room single _ ih =>
        rw [List.length_cons] at enough
        obtain ⟨n, rfl⟩ : ∃ m, n = m + 1 := ⟨n - 1, by omega⟩
        rw [readWords_colon, if_neg (by omega), if_neg (not_not.mpr single), if_neg later]
        exact ih (by omega)

theorem Reads.word_iff (isWord : IsWord word) (room : w.words.length ≤ 7) :
    Reads (word ++ ':' :: rest) w w' ↔ Reads rest (w.push [hexadecimal word]) w' := by
  rw [← readWords_iff (Nat.le_succ _), readWords_word isWord room, readWords_iff]
  rw [List.length_append, List.length_cons]
  omega

theorem Reads.start_iff (first : w.words = []) (single : w.gapPos = none) :
    Reads (':' :: ':' :: rest) w w' ↔ Reads rest { w with gapPos := some 0 } w' := by
  rw [← readWords_iff (Nat.le_succ _), readWords_colon, if_neg (by rw [first]; decide), if_neg (not_not.mpr single),
    if_pos first, List.head?_cons, if_pos rfl, List.tail_cons, readWords_iff]
  rw [List.length_cons, List.length_cons]
  omega

theorem Reads.gap_iff (later : w.words ≠ []) (room : w.words.length ≤ 7) (single : w.gapPos = none) :
    Reads (':' :: rest) w w' ↔ Reads rest { w with gapPos := some w.words.length } w' := by
  rw [← readWords_iff (Nat.le_succ _), readWords_colon, if_neg (by omega), if_neg (not_not.mpr single), if_neg later,
    readWords_iff]
  exact Nat.le_succ _

theorem Reads.last_iff {digits : Text} (nonempty : digits ≠ []) (all : ∀ c ∈ digits, torIsxdigit c = true) :
    Reads digits w w' ↔ w.words.length ≤ 7 ∧ digits.length ≤ 4 ∧ w' = w.push [hexadecimal digits] := by
  constructor
  · intro reads
    rw [← readWords_iff (Nat.le_succ _)] at reads
    have taken : digits.takeWhile torIsxdigit = digits := List.takeWhile_eq_self_iff.mpr all
    have dropped : digits.dropWhile torIsxdigit = [] := List.dropWhile_eq_nil_iff.mpr all
    obtain ⟨c, t, rfl⟩ := List.exists_cons_of_ne_nil nonempty
    rw [readWords_xdigit (all c List.mem_cons_self), taken, dropped] at reads
    split at reads
    · cases reads
    rename_i room
    split at reads
    · cases reads
    rename_i short
    exact ⟨Nat.not_lt.mp room, Nat.not_lt.mp short, (Option.some.inj reads).symm⟩
  · rintro ⟨room, short, rfl⟩
    exact .last ⟨nonempty, all, short⟩ room

theorem Reads.no_gap (single : w.gapPos ≠ none) : ¬ Reads (':' :: rest) w w' := by
  rw [← readWords_iff (Nat.le_succ _), readWords_colon]
  by_cases full : 7 < w.words.length
  · rw [if_pos full]
    exact fun read => by cases read
  · rw [if_neg full, if_pos single]
    exact fun read => by cases read

theorem Reads.gap_kept (reads : Reads s w w') (gap : w.gapPos ≠ none) : w'.gapPos ≠ none := by
  induction reads with
  | nil => exact gap
  | last => exact gap
  | word _ _ _ ih => exact ih gap
  | start _ _ _ ih => exact ih (Option.some_ne_none _)
  | gap _ _ _ _ ih => exact ih (Option.some_ne_none _)

theorem Reads.length_le (reads : Reads s w w') : w'.words.length ≤ w.words.length + s.length := by
  have pushed (w : Words) (n : Nat) : (w.push [n]).words.length = w.words.length + 1 := List.length_append
  induction reads with
  | nil => exact Nat.le_add_right _ _
  | last isWord =>
      rw [pushed]
      have nonempty := List.length_pos_iff.mpr isWord.1
      omega
  | word isWord _ _ ih =>
      rw [pushed] at ih
      rw [List.length_append, List.length_cons]
      omega
  | start _ _ _ ih =>
      rw [List.length_cons, List.length_cons]
      exact ih.trans (Nat.add_le_add_left (by omega) _)
  | gap _ _ _ _ ih =>
      rw [List.length_cons]
      exact ih.trans (Nat.add_le_add_left (by omega) _)

theorem Reads.count (reads : Reads s w w') :
    w'.words.length = w.words.length + (s.splitOn ':').countP (!·.isEmpty) := by
  have pushed (w : Words) (n : Nat) : (w.push [n]).words.length = w.words.length + 1 := List.length_append
  have empty : ([] : Text).isEmpty = true := rfl
  induction reads with
  | nil => rfl
  | last isWord =>
      rw [pushed, List.splitOn_eq_singleton isWord.noColon, List.countP_singleton, List.isEmpty_eq_false_iff.mpr isWord.1]
      rfl
  | word isWord _ _ ih =>
      rw [ih, pushed, List.splitOn_append_cons_self_of_not_mem isWord.noColon, List.countP_cons,
        List.isEmpty_eq_false_iff.mpr isWord.1]
      simp only [Bool.not_false, if_true]
      omega
  | start _ _ _ ih =>
      rw [ih, List.splitOn_cons_eq_if_modifyHead, List.splitOn_cons_eq_if_modifyHead, if_pos (beq_self_eq_true ':'),
        if_pos (beq_self_eq_true ':'), List.countP_cons_of_neg (by simp), List.countP_cons_of_neg (by simp)]
  | gap _ _ _ _ ih =>
      rw [ih, List.splitOn_cons_eq_if_modifyHead, if_pos (beq_self_eq_true ':'), List.countP_cons_of_neg (by simp)]

end Loop

/-! ## A colon and a word behind -/

section Behind
variable {s t word rest digits : Text} {w w' w'' : Words}

theorem getLast?_behind {c : Char} (rest : Text) (last : (word ++ c :: rest).getLast? ≠ some ':') (colon : c = ':') :
    rest ≠ [] ∧ rest.getLast? ≠ some ':' := by
  subst colon
  obtain _ | ⟨d, rest⟩ := rest
  · exact absurd (by simp) last
  · rw [List.getLast?_append, List.getLast?_cons_cons] at last
    refine ⟨List.cons_ne_nil d rest, fun same => last ?_⟩
    rw [same, Option.some_or]

theorem Reads.append_iff (reads : Reads s w w') (nonempty : s ≠ []) (last : s.getLast? ≠ some ':') (some : digits ≠ [])
    (all : ∀ c ∈ digits, torIsxdigit c = true) :
    Reads (s ++ ':' :: digits) w w'' ↔
      w'.words.length ≤ 7 ∧ digits.length ≤ 4 ∧ w'' = w'.push [hexadecimal digits] := by
  induction reads with
  | nil => exact absurd rfl nonempty
  | last isWord room => rw [Reads.word_iff isWord room, Reads.last_iff some all]
  | word isWord room _ ih =>
      obtain ⟨nonempty, last⟩ := getLast?_behind _ last rfl
      rw [List.append_assoc, List.cons_append, Reads.word_iff isWord room, ih nonempty last]
  | start first single _ ih =>
      obtain ⟨nonempty, last⟩ := @getLast?_behind [':'] ':' _ last rfl
      rw [List.cons_append, List.cons_append, Reads.start_iff first single, ih nonempty last]
  | gap later room single _ ih =>
      obtain ⟨nonempty, last⟩ := @getLast?_behind [] ':' _ last rfl
      rw [List.cons_append, Reads.gap_iff later room single, ih nonempty last]

theorem Reads.append_colon (reads : Reads s w w') (last : s = [] ∨ s.getLast? = some ':') :
    Reads (s ++ t) w w'' ↔ Reads t w' w'' := by
  have ends {front rest : Text} (last : (front ++ ':' :: rest).getLast? = some ':') :
    rest = [] ∨ rest.getLast? = some ':' := by
    obtain _ | ⟨d, rest⟩ := rest
    · exact .inl rfl
    · rw [List.getLast?_append, List.getLast?_cons_cons] at last
      refine .inr ?_
      rw [List.getLast?_eq_some_getLast (List.cons_ne_nil d rest)] at last ⊢
      rwa [Option.some_or] at last
  induction reads with
  | nil => rfl
  | last isWord =>
      obtain rfl | last := last
      · exact absurd rfl isWord.1
      · exact absurd (List.mem_of_getLast? last) isWord.noColon
  | word isWord room _ ih =>
      have last := last.resolve_left (by simp)
      rw [List.append_assoc, List.cons_append, Reads.word_iff isWord room]
      exact ih (ends last)
  | start first single _ ih =>
      have last := last.resolve_left (by simp)
      rw [List.cons_append, List.cons_append, Reads.start_iff first single]
      exact ih (@ends [':'] _ last)
  | gap later room single _ ih =>
      have last := last.resolve_left (by simp)
      rw [List.cons_append, Reads.gap_iff later room single]
      exact ih (@ends [] _ last)

theorem Reads.gap_of_end (reads : Reads s w w') (ends : [':', ':'] <:+ ':' :: s) : w'.gapPos ≠ none := by
  have noColon {word : Text} (isWord : IsWord word) : ¬ [':'] <:+ word := fun suffix =>
    isWord.noColon (suffix.subset (List.mem_singleton_self ':'))
  induction reads with
  | nil => exact absurd ends.length_le (by decide)
  | @last word _ isWord _ =>
      refine absurd (List.suffix_of_suffix_length_le ((List.suffix_cons ':' [':']).trans ends) (List.suffix_cons ':' word) ?_)
        (noColon isWord)
      exact List.length_pos_iff.mpr isWord.1
  | @word word rest w w' isWord room more ih =>
      refine ih ?_
      cases rest with
      | nil =>
          -- the colon before the last one would belong to the word
          have both : [':'] ++ [':'] <:+ (':' :: word) ++ [':'] := ends
          exact absurd (List.suffix_of_suffix_length_le (List.suffix_append_self_iff.mp both) (List.suffix_cons ':' word)
            (List.length_pos_iff.mpr isWord.1)) (noColon isWord)
      | cons d rest =>
          refine List.suffix_of_suffix_length_le ends ⟨':' :: word, rfl⟩ ?_
          simp
  | start _ _ more => exact more.gap_kept (Option.some_ne_none _)
  | gap _ _ _ more => exact more.gap_kept (Option.some_ne_none _)

end Behind
end TorJet.Net
