import Mathlib.Data.List.Infix
import TorJet.Net.Address
import TorJet.Net.Inaddr

/-!
# Addresses there and back

What `tor_inet_ntop` writes is short, and `tor_inet_pton` reads the same address from it.
-/

namespace TorJet.Net
open Base

def TorAddr.Valid : TorAddr → Prop
  | .inet a => a < 2 ^ 32
  | .inet6 words => words.length = 8 ∧ ∀ w ∈ words, w < 65536

/-- An `in_addr` or an `in6_addr`. -/
abbrev Address := { addr : TorAddr // addr.Valid }

/-! ## Digits -/

section Digits
variable {n w : Nat} {c : Char} {rest : Text}

theorem hexDigits_of_lt (small : n < 16) : hexDigits n = [n.digitChar] := Nat.toDigits_of_lt_base small

theorem hexDigits_of_le (large : 16 ≤ n) : hexDigits n = hexDigits (n / 16) ++ [(n % 16).digitChar] :=
  Nat.toDigits_of_base_le (by decide) large

theorem hexDigits_ne_nil (n : Nat) : hexDigits n ≠ [] := Nat.toDigits_ne_nil

theorem digitChar_spec (n : Nat) (small : n < 16) :
    torIsxdigit n.digitChar = true ∧ hexDecodeDigit n.digitChar = n := by
  revert n
  decide

theorem torIsxdigit_hexDigits (n : Nat) : ∀ c ∈ hexDigits n, torIsxdigit c = true := by
  induction n using Nat.strongRecOn with
  | ind n ih =>
      intro c mem
      by_cases small : n < 16
      · rw [hexDigits_of_lt small, List.mem_singleton] at mem
        rw [mem]
        exact (digitChar_spec n small).1
      · rw [hexDigits_of_le (Nat.not_lt.mp small), List.mem_append, List.mem_singleton] at mem
        obtain mem | rfl := mem
        · exact ih (n / 16) (by omega) c mem
        · exact (digitChar_spec (n % 16) (Nat.mod_lt _ (by decide))).1

theorem hexadecimal_hexDigits (n : Nat) : hexadecimal (hexDigits n) = n := by
  induction n using Nat.strongRecOn with
  | ind n ih =>
      by_cases small : n < 16
      · rw [hexDigits_of_lt small, hexadecimal, List.foldl_cons, List.foldl_nil, (digitChar_spec n small).2, Nat.zero_mul,
          Nat.zero_add]
      · have last := (digitChar_spec (n % 16) (Nat.mod_lt _ (by decide))).2
        have start := ih (n / 16) (by omega)
        rw [hexadecimal] at start
        rw [hexDigits_of_le (Nat.not_lt.mp small), hexadecimal, List.foldl_append, start, List.foldl_cons, List.foldl_nil,
          last]
        omega

theorem hexDigits_length (small : w < 65536) : (hexDigits w).length ≤ 4 := by
  rw [hexDigits, Nat.length_toDigits_le_iff (by decide) (by decide)]
  exact small

theorem takeWhile_hexDigits (stops : ∀ c ∈ rest.head?, torIsxdigit c = false) :
    (hexDigits n ++ rest).takeWhile torIsxdigit = hexDigits n := by
  have after : rest.takeWhile torIsxdigit = [] := by
    cases rest with
    | nil => rfl
    | cons c rest => rw [List.takeWhile_cons_of_neg (by rw [stops c rfl]; exact Bool.false_ne_true)]
  rw [List.takeWhile_append_of_pos (torIsxdigit_hexDigits n), after, List.append_nil]

theorem decimalDigits_length (small : n < 256) : (decimalDigits n).length ≤ 3 := by
  rw [decimalDigits, Nat.length_toDigits_le_iff (by decide) (by decide)]
  omega

theorem decimalDigits_head (large : 1 < (decimalDigits n).length) : (decimalDigits n).head? ≠ some '0' := by
  induction n using Nat.strongRecOn with
  | ind n ih =>
      by_cases small : n < 10
      · rw [decimalDigits, Nat.toDigits_of_lt_base small] at large
        exact absurd large (Nat.lt_irrefl 1)
      · have cut : decimalDigits n = decimalDigits (n / 10) ++ [(n % 10).digitChar] :=
          Nat.toDigits_of_base_le (by decide) (Nat.not_lt.mp small)
        have nonempty : decimalDigits (n / 10) ≠ [] := Nat.toDigits_ne_nil
        rw [cut, List.head?_append_of_ne_nil _ nonempty]
        by_cases single : n / 10 < 10
        · have nonzero : ∀ m < 10, 0 < m → [m.digitChar].head? ≠ some '0' := by decide
          rw [decimalDigits, Nat.toDigits_of_lt_base single]
          exact nonzero (n / 10) single (by omega)
        · have long : 1 < (decimalDigits (n / 10)).length := by
            rw [← Nat.not_le, decimalDigits, Nat.length_toDigits_le_iff (by decide) (by decide)]
            omega
          exact ih (n / 10) (by omega) long

end Digits

/-! ## Dotted quads -/

def octets (a : Nat) : List Nat := [a >>> 24 % 256, a >>> 16 % 256, a >>> 8 % 256, a % 256]

section Quads
variable {a n : Nat} {rest : Text}

theorem octets_lt (a : Nat) : ∀ n ∈ octets a, n < 256 := by
  simp only [octets, List.forall_mem_cons]
  exact ⟨Nat.mod_lt _ (by decide), Nat.mod_lt _ (by decide), Nat.mod_lt _ (by decide), Nat.mod_lt _ (by decide), by simp⟩

theorem joinOctets_octets (small : a < 2 ^ 32) : joinOctets (octets a) = a := by
  simp only [octets, joinOctets, List.foldl_cons, List.foldl_nil, Nat.shiftRight_eq_div_pow]
  omega

theorem joinOctets_halves (small : a < 2 ^ 32) :
    joinOctets ((octets a).take 2) = a / 65536 ∧ joinOctets ((octets a).drop 2) = a % 65536 := by
  simp only [octets, List.take_succ_cons, List.take_zero, List.drop_succ_cons, List.drop_zero, joinOctets,
    List.foldl_cons, List.foldl_nil, Nat.shiftRight_eq_div_pow]
  omega

theorem torIsdigit_decimalDigits (n : Nat) : ∀ c ∈ decimalDigits n, torIsdigit c = true := fun _ => torIsdigit_toDigits

theorem scanUnsigned_decimalDigits (small : n < 256) (stops : ∀ c ∈ rest.head?, torIsdigit c = false) :
    scanUnsigned 3 (decimalDigits n ++ rest) = some (n, rest) := by
  have short := decimalDigits_length small
  have stopsEarly : ∀ c ∈ (rest.take (3 - (decimalDigits n).length)).head?, torIsdigit c = false := by
    intro c mem
    rw [List.head?_take] at mem
    split at mem
    · cases mem
    · exact stops c mem
  have digits : ((decimalDigits n ++ rest).take 3).takeWhile torIsdigit = decimalDigits n := by
    rw [List.take_append, List.take_of_length_le short]
    exact takeWhile_toDigits stopsEarly
  have value : decimal (decimalDigits n) = n := decimal_toDigits n
  have nonempty : (decimalDigits n).isEmpty = false := List.isEmpty_eq_false_iff.mpr Nat.toDigits_ne_nil
  rw [scanUnsigned, digits, nonempty, value]
  rw [if_neg Bool.false_ne_true, if_neg (by omega), List.drop_left]

theorem torInetNtoa_eq (a : Nat) :
    torInetNtoa a = decimalDigits (a >>> 24 % 256) ++ '.' :: (decimalDigits (a >>> 16 % 256) ++
      '.' :: (decimalDigits (a >>> 8 % 256) ++ '.' :: decimalDigits (a % 256))) := by
  simp [torInetNtoa, List.intercalate]

theorem scanQuad_torInetNtoa (a : Nat) : scanQuad (torInetNtoa a) = some (octets a) := by
  have small := octets_lt a
  rw [octets] at *
  simp only [List.forall_mem_cons] at small
  obtain ⟨b, c, d, e, -⟩ := small
  have stops (rest : Text) : ∀ c ∈ ('.' :: rest).head?, torIsdigit c = false := by
    intro c mem
    rw [← Option.some.inj mem]
    rfl
  have atDot (n : Nat) (rest : Text) (small : n < 256) (stops : ∀ c ∈ rest.head?, torIsdigit c = false) :
      scanQuad.dot ('.' :: (decimalDigits n ++ rest)) = some (n, rest) := scanUnsigned_decimalDigits small stops
  have last := atDot (a % 256) [] e fun c mem => by cases mem
  rw [List.append_nil] at last
  rw [torInetNtoa_eq, scanQuad, scanUnsigned_decimalDigits b (stops _)]
  dsimp only [bind, Option.bind]
  rw [atDot (a >>> 16 % 256) _ c (stops _)]
  dsimp only
  rw [atDot (a >>> 8 % 256) _ d (stops _)]
  dsimp only
  rw [last]
  rfl

theorem octets_any (a : Nat) : (octets a).any (255 < ·) = false := by
  rw [List.any_eq_false]
  intro n mem
  have := octets_lt a n mem
  rw [decide_eq_true_eq]
  omega

theorem torInetAton_torInetNtoa (small : a < 2 ^ 32) : torInetAton (torInetNtoa a) = some a := by
  have noDot : ∀ l ∈ (octets a).map decimalDigits, '.' ∉ l := by
    intro l mem dot
    obtain ⟨n, -, rfl⟩ := List.mem_map.mp mem
    cases torIsdigit_decimalDigits n '.' dot
  have split : (torInetNtoa a).splitOn '.' = (octets a).map decimalDigits :=
    List.splitOn_intercalate '.' noDot (List.cons_ne_nil _ _)
  have noOctal : (((octets a).map decimalDigits).any fun octet => 1 < octet.length && octet.head? = some '0') = false := by
    rw [List.any_eq_false]
    intro l mem
    obtain ⟨n, -, rfl⟩ := List.mem_map.mp mem
    rw [Bool.and_eq_true, decide_eq_true_eq, decide_eq_true_eq]
    exact fun both => decimalDigits_head both.1 both.2
  rw [torInetAton, scanQuad_torInetNtoa]
  dsimp only [bind, Option.bind]
  rw [split, noOctal, octets_any, Bool.or_false, if_neg Bool.false_ne_true, joinOctets_octets small]

theorem torInetNtoa_length (a : Nat) : (torInetNtoa a).length ≤ 15 := by
  have small := octets_lt a
  rw [octets] at small
  simp only [List.forall_mem_cons] at small
  obtain ⟨b, c, d, e, -⟩ := small
  have b := decimalDigits_length b
  have c := decimalDigits_length c
  have d := decimalDigits_length d
  have e := decimalDigits_length e
  rw [torInetNtoa_eq]
  simp only [List.length_append, List.length_cons]
  omega

theorem torInetNtoa_last (a : Nat) : ∃ c, (torInetNtoa a).getLast? = some c ∧ torIsdigit c = true := by
  have nonempty : decimalDigits (a % 256) ≠ [] := Nat.toDigits_ne_nil
  have last := List.getLast?_eq_some_getLast nonempty
  refine ⟨_, ?_, torIsdigit_decimalDigits _ _ (List.getLast_mem nonempty)⟩
  rw [torInetNtoa_eq]
  simp only [List.getLast?_append, List.getLast?_cons, last, Option.some_or, Option.getD_some]

end Quads

/-! ## Words between colons -/

def Words.push (read : Words) (ws : List Nat) : Words := { read with words := read.words ++ ws }

section Colons
open torInetNtop6
variable {w v fuel : Nat} {ws front back : List Nat} {rest : Text} {read : Words}

theorem colons_singleton (w : Nat) : colons [w] = hexDigits w := by simp [colons, List.intercalate]

theorem colons_cons_cons (w v : Nat) (ws : List Nat) :
    colons (w :: v :: ws) = hexDigits w ++ ':' :: colons (v :: ws) := by
  simp [colons, List.intercalate]

theorem colons_induction {motive : List Nat → Prop} (nil : motive []) (single : ∀ w, motive [w])
    (more : ∀ w v ws, motive (v :: ws) → motive (w :: v :: ws)) (ws : List Nat) : motive ws := by
  induction ws with
  | nil => exact nil
  | cons w ws ih =>
      cases ws with
      | nil => exact single w
      | cons v ws => exact more w v ws ih

theorem colons_mem (ws : List Nat) : ∀ c ∈ colons ws, torIsxdigit c = true ∨ c = ':' := by
  induction ws using colons_induction with
  | nil => simp [colons]
  | single w =>
      intro c mem
      rw [colons_singleton] at mem
      exact .inl (torIsxdigit_hexDigits w c mem)
  | more w v ws ih =>
      intro c mem
      rw [colons_cons_cons, List.mem_append, List.mem_cons] at mem
      obtain digit | colon | later := mem
      · exact .inl (torIsxdigit_hexDigits w c digit)
      · exact .inr colon
      · exact ih c later

theorem colons_last (ws : List Nat) (nonempty : ws ≠ []) : ∃ c, (colons ws).getLast? = some c ∧ torIsxdigit c = true := by
  induction ws using colons_induction with
  | nil => exact absurd rfl nonempty
  | single w =>
      have last := List.getLast?_eq_some_getLast (hexDigits_ne_nil w)
      rw [colons_singleton]
      exact ⟨_, last, torIsxdigit_hexDigits w _ (List.getLast_mem _)⟩
  | more w v ws ih =>
      obtain ⟨c, last, digit⟩ := ih (List.cons_ne_nil _ _)
      refine ⟨c, ?_, digit⟩
      rw [colons_cons_cons, List.getLast?_append, List.getLast?_cons, last]
      rfl

theorem colons_length (ws : List Nat) (small : ∀ w ∈ ws, w < 65536) :
    ws.length ≤ (colons ws).length ∧ (colons ws).length ≤ 5 * ws.length - 1 := by
  have word (w : Nat) (small : w < 65536) : 1 ≤ (hexDigits w).length ∧ (hexDigits w).length ≤ 4 :=
    ⟨List.length_pos_iff.mpr (hexDigits_ne_nil w), hexDigits_length small⟩
  induction ws using colons_induction with
  | nil => simp [colons]
  | single w =>
      have := word w (small w (List.mem_singleton_self w))
      rw [colons_singleton, List.length_singleton]
      omega
  | more w v ws ih =>
      have this := word w (small w List.mem_cons_self)
      have ih := ih fun u mem => small u (List.mem_cons_of_mem w mem)
      rw [List.length_cons] at ih
      rw [colons_cons_cons, List.length_append, List.length_cons, List.length_cons, List.length_cons]
      omega

theorem stops_colon (rest : Text) : ∀ c ∈ (':' :: rest).head?, c = ':' := fun _ mem => (Option.some.inj mem).symm

theorem readWords_hexDigits (small : w < 65536) (room : read.words.length < 8) (rest : Text)
    (stops : ∀ c ∈ rest.head?, c = ':') :
    readWords (fuel + 1) (hexDigits w ++ rest) read =
      if rest = [] then some (read.push [w]) else readWords fuel rest.tail (read.push [w]) := by
  have taken : (hexDigits w ++ rest).takeWhile torIsxdigit = hexDigits w :=
    takeWhile_hexDigits fun c mem => by
      rw [stops c mem]
      rfl
  obtain ⟨c, ds, first⟩ := List.exists_cons_of_ne_nil (hexDigits_ne_nil w)
  have digit : torIsxdigit c = true := torIsxdigit_hexDigits w c (by rw [first]; exact List.mem_cons_self)
  have whole : hexDigits w ++ rest = c :: (ds ++ rest) := by rw [first, List.cons_append]
  have after : (c :: (ds ++ rest)).drop (hexDigits w).length = rest := by rw [← whole, List.drop_left]
  rw [whole] at taken ⊢
  rw [Inaddr.readWords_digit (by omega) digit (hexDigits w) taken, after,
    if_neg (Nat.not_lt.mpr (hexDigits_length small)), hexadecimal_hexDigits]
  cases rest with
  | nil => rfl
  | cons d rest =>
      obtain rfl := stops d rfl
      rfl

theorem readWords_colons (fuel : Nat) (read : Words) (rest : Text) (nonempty : ws ≠ []) (small : ∀ w ∈ ws, w < 65536)
    (room : read.words.length + ws.length ≤ 8) (stops : ∀ c ∈ rest.head?, c = ':') :
    readWords (fuel + ws.length) (colons ws ++ rest) read =
      if rest = [] then some (read.push ws) else readWords fuel rest.tail (read.push ws) := by
  induction ws using colons_induction generalizing read with
  | nil => exact absurd rfl nonempty
  | single w =>
      rw [List.length_singleton] at room ⊢
      rw [colons_singleton, readWords_hexDigits (small w (List.mem_singleton_self w)) (by omega) rest stops]
  | more w v ws ih =>
      rw [List.length_cons] at room
      have joined : (read.push [w]).push (v :: ws) = read.push (w :: v :: ws) := by
        simp [Words.push]
      have longer : (read.push [w]).words.length = read.words.length + 1 := List.length_append
      have word : readWords (fuel + (v :: ws).length + 1) (hexDigits w ++ ':' :: (colons (v :: ws) ++ rest)) read =
          readWords (fuel + (v :: ws).length) (colons (v :: ws) ++ rest) (read.push [w]) :=
        readWords_hexDigits (small w List.mem_cons_self) (by omega) _ (stops_colon _)
      have later := ih (read.push [w]) (List.cons_ne_nil _ _) (fun u mem => small u (List.mem_cons_of_mem w mem)) (by omega)
      rw [joined] at later
      rw [colons_cons_cons, List.append_assoc, List.cons_append, List.length_cons, ← Nat.add_assoc,
        word, later]

theorem readWords_end (small : ∀ w ∈ ws, w < 65536) (room : read.words.length + ws.length ≤ 8) (enough : ws.length ≤ fuel) :
    readWords fuel (colons ws) read = some (read.push ws) := by
  by_cases nonempty : ws = []
  · subst nonempty
    have none : read.push [] = read := by rw [Words.push, List.append_nil]
    rw [none]
    cases fuel <;> rfl
  · obtain ⟨more, rfl⟩ := Nat.exists_eq_add_of_le' enough
    have whole := readWords_colons more read [] nonempty small room fun c mem => by cases mem
    rw [List.append_nil] at whole
    exact whole

theorem readWords_gap (small : ∀ w ∈ front ++ back, w < 65536) (room : front.length + back.length ≤ 6) :
    readWords (colons front ++ ':' :: ':' :: colons back).length (colons front ++ ':' :: ':' :: colons back) ⟨[], none⟩ =
      some ⟨front ++ back, some front.length⟩ := by
  have smallFront : ∀ w ∈ front, w < 65536 := fun w mem => small w (List.mem_append_left _ mem)
  have smallBack : ∀ w ∈ back, w < 65536 := fun w mem => small w (List.mem_append_right _ mem)
  have long := (colons_length front smallFront).1
  have longBack := (colons_length back smallBack).1
  have colon : ¬ torIsxdigit ':' = true := by decide
  rw [List.length_append, List.length_cons, List.length_cons]
  by_cases nonempty : front = []
  · subst nonempty
    have step := @Inaddr.readWords_colon ':' ((colons back).length + 1) (':' :: colons back) ⟨[], none⟩ (by decide) colon
    rw [if_pos ⟨rfl, rfl⟩, if_pos rfl, List.head?_cons, if_pos rfl, List.tail_cons,
      readWords_end smallBack (by simp; omega) (by omega)] at step
    have length : (colons []).length + ((colons back).length + 1 + 1) = (colons back).length + 1 + 1 := Nat.zero_add _
    rw [length]
    exact step
  · obtain ⟨more, enough⟩ := Nat.exists_eq_add_of_le' long
    have fuel : (colons front).length + ((colons back).length + 1 + 1) = more + (colons back).length + 1 + 1 + front.length := by
      omega
    have step := @Inaddr.readWords_colon ':' (more + (colons back).length + 1) (colons back) ⟨front, none⟩
      (by dsimp only; omega) colon
    rw [if_pos ⟨rfl, rfl⟩, if_neg nonempty, readWords_end smallBack (by simp; omega) (by omega)] at step
    rw [fuel, readWords_colons _ ⟨[], none⟩ _ nonempty smallFront (by rw [List.length_nil]; omega) (stops_colon _)]
    exact step

end Colons

/-! ## IPv6 addresses -/

section Gaps
variable {words : List Nat} {pos : Nat}

theorem longestGapPos_spec (found : longestGapPos words = some pos) : 1 < gapLen words pos := by
  unfold longestGapPos at found
  dsimp only at found
  split at found
  · cases found
  · rename_i large
    obtain rfl := Option.some.inj found
    exact Nat.not_le.mp large

theorem gapLen_split (words : List Nat) (pos : Nat) :
    words.take pos ++ List.replicate (gapLen words pos) 0 ++ words.drop (pos + gapLen words pos) = words := by
  have zeros : (words.drop pos).takeWhile (· = 0) = List.replicate (gapLen words pos) 0 :=
    List.eq_replicate_of_mem fun w mem => by
      have zero := List.mem_takeWhile_imp mem
      exact of_decide_eq_true zero
  have after : words.drop (pos + gapLen words pos) = (words.drop pos).dropWhile (· = 0) := by
    rw [← List.drop_drop]
    conv_lhs => rw [← List.takeWhile_append_dropWhile (p := (· = 0)) (l := words.drop pos)]
    exact List.drop_left' rfl
  rw [List.append_assoc, after, ← zeros, List.takeWhile_append_dropWhile, List.take_append_drop]

end Gaps

section Whole
open torInetNtop6
variable {words : List Nat} {a : Nat} {front s : Text} {read : Words}

theorem torInetPton6_words (noDot : '.' ∉ s)
    (last : ¬ (2 < s.length ∧ s.getLast? = some ':' ∧ s.dropLast.getLast? ≠ some ':'))
    (loop : readWords s.length s ⟨[], none⟩ = some read) : torInetPton6 s = fillGap read [] := by
  rw [torInetPton6, if_neg last, List.idxOf?_eq_none_iff.mpr noDot]
  dsimp only
  rw [loop]
  rfl

theorem rdropWhile_append {p : Char → Bool} {digits : Text} {c : Char} (all : ∀ d ∈ digits, p d = true)
    (last : front.getLast? = some c) (stop : p c = false) : (front ++ digits).rdropWhile p = front := by
  induction digits using List.reverseRecOn with
  | nil =>
      obtain ⟨start, rfl⟩ := List.getLast?_eq_some_iff.mp last
      rw [List.append_nil, List.rdropWhile_concat_neg]
      rw [stop]
      exact Bool.false_ne_true
  | append_singleton digits d ih =>
      rw [← List.append_assoc, List.rdropWhile_concat_pos _ _ _ (all d (by simp))]
      exact ih fun e mem => all e (List.mem_append_left _ mem)

theorem torInetPton6_quad (front : Text) (noDot : '.' ∉ front) (colon : front.getLast? = some ':') (small : a < 2 ^ 32)
    (loop : readWords front.length front ⟨[], none⟩ = some read) :
    torInetPton6 (front ++ torInetNtoa a) = fillGap read [a / 65536, a % 65536] := by
  obtain ⟨c, last, digit⟩ := torInetNtoa_last a
  have guard : ¬ (front ++ torInetNtoa a).getLast? = some ':' := by
    rw [List.getLast?_append, last, Option.some_or]
    intro same
    rw [Option.some.inj same] at digit
    cases digit
  obtain ⟨b, tail, quad⟩ : ∃ b tail, torInetNtoa a = decimalDigits b ++ '.' :: tail := ⟨_, _, torInetNtoa_eq a⟩
  have dot : (front ++ torInetNtoa a).idxOf? '.' = some (front ++ decimalDigits b).length := by
    have whole : front ++ torInetNtoa a = (front ++ decimalDigits b) ++ '.' :: tail := by rw [quad, List.append_assoc]
    have before : '.' ∉ front ++ decimalDigits b := by
      rw [List.mem_append, not_or]
      exact ⟨noDot, fun mem => by cases torIsdigit_decimalDigits b '.' mem⟩
    rw [whole, List.idxOf?, List.findIdx?_append, ← List.idxOf?, List.idxOf?_eq_none_iff.mpr before]
    simp [List.idxOf?_cons]
  have start : (front ++ torInetNtoa a).take (front ++ decimalDigits b).length = front ++ decimalDigits b := by
    rw [quad, ← List.append_assoc, List.take_left]
  have words : (front ++ decimalDigits b).rdropWhile torIsdigit = front :=
    rdropWhile_append (torIsdigit_decimalDigits b) colon rfl
  rw [torInetPton6, if_neg fun all => guard all.2.1, dot]
  dsimp only
  rw [start, words, if_neg (not_not.mpr colon), List.drop_left, scanQuad_torInetNtoa]
  dsimp only [bind, Option.bind]
  rw [octets_any, if_neg Bool.false_ne_true, loop, (joinOctets_halves small).1, (joinOctets_halves small).2]

theorem torInetPton6_plain (length : words.length = 8) (small : ∀ w ∈ words, w < 65536) :
    torInetPton6 (plain words) = some words ∧ (plain words).length ≤ 39 := by
  have noDot (ws : List Nat) : '.' ∉ colons ws := by
    intro mem
    obtain digit | colon := colons_mem ws '.' mem
    · cases digit
    · cases colon
  have ends (ws : List Nat) (nonempty : ws ≠ []) : (colons ws).getLast? ≠ some ':' := by
    intro colon
    obtain ⟨c, last, digit⟩ := colons_last ws nonempty
    rw [last] at colon
    rw [Option.some.inj colon] at digit
    cases digit
  unfold plain
  split
  · have nonempty : words ≠ [] := by
      rw [← List.length_pos_iff]
      omega
    obtain ⟨enough, short⟩ := colons_length words small
    have loop : readWords (colons words).length (colons words) ⟨[], none⟩ = some (Words.push ⟨[], none⟩ words) :=
      readWords_end small (by simp [length]) enough
    refine ⟨?_, by omega⟩
    rw [torInetPton6_words (noDot words) (fun guard => ends words nonempty guard.2.1) loop]
    simp [fillGap, Words.push, length]
  · rename_i pos found
    have zeros := longestGapPos_spec found
    have split := gapLen_split words pos
    generalize words.drop (pos + gapLen words pos) = back at split ⊢
    generalize words.take pos = front at split ⊢
    generalize gapLen words pos = n at zeros split
    subst split
    rw [List.length_append, List.length_append, List.length_replicate] at length
    have smallFront : ∀ w ∈ front, w < 65536 := fun w mem => small w (by simp [mem])
    have smallBack : ∀ w ∈ back, w < 65536 := fun w mem => small w (by simp [mem])
    have loop := readWords_gap (List.forall_mem_append.mpr ⟨smallFront, smallBack⟩) (by omega)
    have noDotHere : '.' ∉ colons front ++ ':' :: ':' :: colons back := by simp [noDot]
    have guard : ¬ (2 < (colons front ++ ':' :: ':' :: colons back).length ∧
        (colons front ++ ':' :: ':' :: colons back).getLast? = some ':' ∧
        (colons front ++ ':' :: ':' :: colons back).dropLast.getLast? ≠ some ':') := by
      rintro ⟨-, last, before⟩
      by_cases empty : back = []
      · subst empty
        have cut : (colons front ++ [':', ':']).dropLast = colons front ++ [':'] := by
          rw [List.dropLast_append_of_ne_nil (List.cons_ne_nil _ _)]
          rfl
        have none : colons ([] : List Nat) = [] := rfl
        rw [none, cut, List.getLast?_concat] at before
        exact before rfl
      · obtain ⟨c, at_, -⟩ := colons_last back empty
        apply ends back empty
        rw [List.getLast?_append, List.getLast?_cons, List.getLast?_cons, at_] at last
        rw [at_]
        exact last
    have frontLength := (colons_length front smallFront).2
    have backLength := (colons_length back smallBack).2
    rw [torInetPton6_words noDotHere guard loop]
    constructor
    · have rest : 8 - (front.length + back.length) = n := by omega
      have few : front.length + back.length < 8 := by omega
      simp [fillGap, rest, few]
    · rw [List.length_append, List.length_cons, List.length_cons]
      omega

theorem torInetPton6_torInetNtop6 (length : words.length = 8) (small : ∀ w ∈ words, w < 65536) :
    torInetPton6 (torInetNtop6 words) = some words ∧ (torInetNtop6 words).length ≤ 39 := by
  unfold torInetNtop6
  split
  · rename_i fifth a b
    have a_lt : a < 65536 := small a (by simp)
    have b_lt : b < 65536 := small b (by simp)
    have joined : a * 65536 + b < 2 ^ 32 := by omega
    have high : (a * 65536 + b) / 65536 = a := by omega
    have low : (a * 65536 + b) % 65536 = b := by omega
    have quad := torInetNtoa_length (a * 65536 + b)
    split_ifs with compatible mapped
    · have loop : readWords 2 [':', ':'] ⟨[], none⟩ = some ⟨[], some 0⟩ := by decide
      have read := torInetPton6_quad [':', ':'] (by decide) rfl joined loop
      rw [high, low] at read
      rw [compatible.1]
      refine ⟨read, ?_⟩
      rw [List.length_cons, List.length_cons]
      omega
    · rw [mapped]
      have ffff : hexDigits 0xffff = ['f', 'f', 'f', 'f'] := by decide
      have loop : readWords 7 [':', ':', 'f', 'f', 'f', 'f', ':'] ⟨[], none⟩ = some ⟨[0xffff], some 0⟩ := by decide
      have read := torInetPton6_quad [':', ':', 'f', 'f', 'f', 'f', ':'] (by decide) rfl joined loop
      rw [high, low] at read
      rw [ffff]
      refine ⟨read, ?_⟩
      simp only [List.cons_append, List.nil_append, List.length_cons]
      omega
    · exact torInetPton6_plain length small
  · exact torInetPton6_plain length small

end Whole

/-! ## Both families -/

inductive Family
  | afInet
  | afInet6
  | other (af : Int)
  deriving DecidableEq

def TorAddr.family : TorAddr → Family
  | .inet _ => .afInet
  | .inet6 _ => .afInet6

/-- What `tor_inet_pton` returns: 1 with an address, 0 or -1. -/
inductive Pton
  | address (addr : TorAddr)
  | badParse
  | badFamily
  deriving DecidableEq

/-- `tor_snprintf` into `size` bytes. -/
def torSnprintf (s : Text) (size : Nat) : Option Text :=
  if size = 0 ∨ sizeTCeiling < size ∨ size ≤ s.length then none else some s

/-- `tor_inet_ntop` into `len` bytes. -/
def torInetNtop (addr : TorAddr) (len : Nat) : Option Text :=
  match addr with
  | .inet a => torSnprintf (torInetNtoa a) len
  | .inet6 words => if len < (torInetNtop6 words).length + 1 then none else some (torInetNtop6 words)

def torInetPton (af : Family) (src : Text) : Except Inaddr.Fault Pton :=
  match af with
  | .afInet => .ok (((torInetAton src).map fun a => .address (.inet a)).getD .badParse)
  | .afInet6 => do
      let words ← Inaddr.torInetPton6 src
      .ok ((words.map fun words => .address (.inet6 words)).getD .badParse)
  | .other _ => .ok .badFamily

/-- The longest text of an address: the one of `INET_NTOA_BUF_LEN` has 15 characters, an IPv6 address at most 39. -/
def TorAddr.maxTextLen : TorAddr → Nat
  | .inet _ => 15
  | .inet6 _ => 39

section Codec

theorem torInetPton_total (af : Family) (src : Text) : ∃ result, torInetPton af src = .ok result := by
  cases af with
  | afInet => exact ⟨_, rfl⟩
  | afInet6 =>
      rw [torInetPton, Inaddr.torInetPton6_eq]
      exact ⟨_, rfl⟩
  | other _ => exact ⟨_, rfl⟩

theorem torInetPton_torInetNtop (addr : Address) (len : Nat) (room : addr.1.maxTextLen < len)
    (object : len ≤ sizeTCeiling) :
    ∃ text, torInetNtop addr.1 len = some text ∧ torInetPton addr.1.family text = .ok (.address addr.1) := by
  obtain ⟨addr, valid⟩ := addr
  cases addr with
  | inet a =>
      have short := torInetNtoa_length a
      have room : 15 < len := room
      refine ⟨torInetNtoa a, if_neg (by omega), ?_⟩
      rw [TorAddr.family, torInetPton]
      dsimp only
      rw [torInetAton_torInetNtoa valid]
      rfl
  | inet6 words =>
      obtain ⟨read, short⟩ := torInetPton6_torInetNtop6 valid.1 valid.2
      have room : 39 < len := room
      refine ⟨torInetNtop6 words, if_neg (by omega), ?_⟩
      rw [TorAddr.family, torInetPton]
      dsimp only
      rw [Inaddr.torInetPton6_eq, read]
      rfl

/-- Every address comes back from its text in a buffer that has room for the longest one, and no text makes
`tor_inet_pton` write outside the words or fail an assertion. -/
theorem inet_codec :
    (∀ (addr : Address) (len : Nat), addr.1.maxTextLen < len → len ≤ sizeTCeiling →
      ∃ text, torInetNtop addr.1 len = some text ∧ torInetPton addr.1.family text = .ok (.address addr.1)) ∧
    ∀ (af : Family) (src : Text), ∃ result, torInetPton af src = .ok result :=
  ⟨torInetPton_torInetNtop, torInetPton_total⟩

theorem inet_codec_mapped :
    ∃ text, torInetNtop (.inet6 [0, 0, 0, 0, 0, 0xffff, 0x0a00, 1]) 40 = some text ∧
      torInetPton .afInet6 text = .ok (.address (.inet6 [0, 0, 0, 0, 0, 0xffff, 0x0a00, 1])) :=
  inet_codec.1 ⟨.inet6 [0, 0, 0, 0, 0, 0xffff, 0x0a00, 1], by decide, by decide⟩ 40 (by decide) (by decide)

end Codec
end TorJet.Net
