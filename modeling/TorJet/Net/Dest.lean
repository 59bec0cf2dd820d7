import TorJet.Net.CString
import TorJet.Net.Wording

/-!
# Destinations with a port behind

`string_is_valid_dest` lets host names and addresses through as they were written, an IPv6 address also without brackets.
With a colon and a port behind, some of those are IPv6 addresses again.
-/

namespace TorJet.Net
open Base

def stringIsValidIpv4Address (s : Text) : Bool := (torInetAton s).isSome

def stringIsValidIpv6Address (s : Text) : Bool := (torInetPton6 s).isSome

def isHostChar (c : Char) : Bool := torIsalpha c || torIsdigit c || c = '-' || c = '_'

def stringIsValidNonrfcHostname (s : Text) : Bool :=
  if s.isEmpty then false
  else if stringIsValidIpv4Address s then false
  else
    let components := s.splitOn '.'
    -- a single terminating dot is allowed
    let components := if components.getLast? = some [] then components.dropLast else components
    components.all fun c => !c.isEmpty && c.head? ≠ some '-' && c.head? ≠ some '_' && c.all isHostChar

def stringIsValidDest (s : Text) : Bool :=
  if s.isEmpty then false
  else
    let inner := if s.head? = some '[' ∧ s.getLast? = some ']' then s.tail.dropLast else s
    stringIsValidIpv4Address inner || stringIsValidIpv6Address inner || stringIsValidNonrfcHostname inner

def wordsWritten (s : Text) : Nat := (s.splitOn ':').countP (!·.isEmpty)

def Extends (dest : Text) (port : Nat) : Prop :=
  stringIsValidIpv6Address dest = true ∧ '.' ∉ dest ∧ dest.getLast? ≠ some ':' ∧ wordsWritten dest ≤ 6 ∧ port < 10000

instance (dest : Text) (port : Nat) : Decidable (Extends dest port) := by
  unfold Extends
  infer_instance

def withPort (dest : Text) (port : Nat) : Text := dest ++ ':' :: decimalDigits port

/-! ## The characters of addresses -/

section Characters
variable {s rest : Text} {n : Nat} {quad words : List Nat} {w w' : Words}

theorem scanUnsigned_chars {width : Nat} (read : scanUnsigned width s = some (n, rest)) :
    ∃ digits, s = digits ++ rest ∧ ∀ c ∈ digits, torIsdigit c = true := by
  unfold scanUnsigned at read
  dsimp only at read
  split at read
  · cases read
  split at read
  · cases read
  obtain ⟨-, rfl⟩ := Prod.mk.inj (Option.some.inj read)
  refine ⟨(s.take width).takeWhile torIsdigit, ?_, fun c => List.mem_takeWhile_imp⟩
  have pre : (s.take width).takeWhile torIsdigit <+: s := (List.takeWhile_prefix _).trans (List.take_prefix width s)
  exact (List.prefix_iff_eq_append.mp pre).symm

theorem scanQuad_chars (read : scanQuad s = some quad) : '.' ∈ s ∧ ∀ c ∈ s, torIsdigit c = true ∨ c = '.' := by
  have dotted {s rest : Text} {n : Nat} (read : scanQuad.dot s = some (n, rest)) :
      ∃ digits, s = '.' :: (digits ++ rest) ∧ ∀ c ∈ digits, torIsdigit c = true := by
    unfold scanQuad.dot at read
    split at read
    · obtain ⟨digits, rfl, all⟩ := scanUnsigned_chars read
      exact ⟨digits, rfl, all⟩
    · cases read
  unfold scanQuad at read
  obtain ⟨⟨a, r₁⟩, first, read⟩ := Option.bind_eq_some_iff.mp read
  obtain ⟨⟨b, r₂⟩, second, read⟩ := Option.bind_eq_some_iff.mp read
  obtain ⟨⟨c, r₃⟩, third, read⟩ := Option.bind_eq_some_iff.mp read
  obtain ⟨⟨d, r₄⟩, fourth, read⟩ := Option.bind_eq_some_iff.mp read
  dsimp only at second third fourth read
  split at read
  · rename_i done
    obtain rfl := List.isEmpty_iff.mp done
    obtain ⟨d₁, rfl, all₁⟩ := scanUnsigned_chars first
    obtain ⟨d₂, rfl, all₂⟩ := dotted second
    obtain ⟨d₃, rfl, all₃⟩ := dotted third
    obtain ⟨d₄, rfl, all₄⟩ := dotted fourth
    simp only [List.mem_append, List.mem_cons, List.not_mem_nil, or_false]
    refine ⟨.inr (.inl trivial), ?_⟩
    rintro c (mem | rfl | mem | rfl | mem | rfl | mem)
    · exact .inl (all₁ c mem)
    · exact .inr rfl
    · exact .inl (all₂ c mem)
    · exact .inr rfl
    · exact .inl (all₃ c mem)
    · exact .inr rfl
    · exact .inl (all₄ c mem)
  · cases read

theorem torInetAton_chars (valid : stringIsValidIpv4Address s = true) :
    '.' ∈ s ∧ ∀ c ∈ s, torIsdigit c = true ∨ c = '.' := by
  obtain ⟨a, read⟩ := Option.isSome_iff_exists.mp valid
  unfold torInetAton at read
  obtain ⟨quad, scanned, -⟩ := Option.bind_eq_some_iff.mp read
  exact scanQuad_chars scanned

theorem Reads.chars (reads : Reads s w w') : ∀ c ∈ s, torIsxdigit c = true ∨ c = ':' := by
  induction reads with
  | nil => exact fun c mem => by cases mem
  | last isWord => exact fun c mem => .inl (isWord.2.1 c mem)
  | word isWord _ _ ih =>
      intro c mem
      rw [List.mem_append, List.mem_cons] at mem
      obtain mem | rfl | mem := mem
      · exact .inl (isWord.2.1 c mem)
      · exact .inr rfl
      · exact ih c mem
  | start _ _ _ ih =>
      intro c mem
      rw [List.mem_cons, List.mem_cons] at mem
      obtain rfl | rfl | mem := mem
      · exact .inr rfl
      · exact .inr rfl
      · exact ih c mem
  | gap _ _ _ _ ih =>
      intro c mem
      obtain rfl | mem := List.mem_cons.mp mem
      · exact .inr rfl
      · exact ih c mem

theorem torInetPton6_plain_iff (noDot : '.' ∉ s) :
    stringIsValidIpv6Address s = true ↔
      ¬ (2 < s.length ∧ s.getLast? = some ':' ∧ s.dropLast.getLast? ≠ some ':') ∧
        ∃ w, Reads s ⟨[], none⟩ w ∧ (fillGap w []).isSome = true := by
  rw [stringIsValidIpv6Address, torInetPton6, List.idxOf?_eq_none_iff.mpr noDot]
  split
  · rename_i trailing
    exact iff_of_false Bool.false_ne_true fun both => both.1 trailing
  · rename_i proper
    rw [and_iff_right proper]
    cases loop : readWords s.length s ⟨[], none⟩ with
    | none =>
        refine iff_of_false Bool.false_ne_true ?_
        rintro ⟨w, reads, -⟩
        rw [(readWords_iff le_rfl).mpr reads] at loop
        cases loop
    | some w =>
        have reads := (readWords_iff le_rfl).mp loop
        constructor
        · exact fun filled => ⟨w, reads, filled⟩
        · rintro ⟨w', reads', filled⟩
          rw [(readWords_iff le_rfl).mpr reads'] at loop
          rwa [← Option.some.inj loop]

theorem torInetPton6_dotted {dot : Nat} (found : s.idxOf? '.' = some dot) (valid : stringIsValidIpv6Address s = true) :
    ∃ front quad w, s = front ++ quad ∧ front.length ≤ dot ∧ (scanQuad quad).isSome = true ∧
      Reads front ⟨[], none⟩ w := by
  obtain ⟨words, read⟩ := Option.isSome_iff_exists.mp valid
  rw [torInetPton6, found] at read
  split at read
  · cases read
  dsimp only at read
  have pre := (List.rdropWhile_prefix torIsdigit (s.take dot)).trans (List.take_prefix dot s)
  have short : ((s.take dot).rdropWhile torIsdigit).length ≤ dot :=
    (List.rdropWhile_prefix torIsdigit (s.take dot)).length_le.trans (List.length_take_le dot s)
  generalize (s.take dot).rdropWhile torIsdigit = front at *
  split at read
  · cases read
  obtain ⟨quad, scanned, read⟩ := Option.bind_eq_some_iff.mp read
  split at read
  · cases read
  obtain ⟨w, loop, -⟩ := Option.bind_eq_some_iff.mp read
  obtain ⟨rest, rfl⟩ := pre
  rw [List.drop_left] at scanned
  exact ⟨front, rest, w, rfl, short, by rw [scanned]; rfl, (readWords_iff le_rfl).mp loop⟩

theorem torInetPton6_chars (valid : stringIsValidIpv6Address s = true) :
    ∀ c ∈ s, torIsxdigit c = true ∨ c = ':' ∨ c = '.' := by
  cases found : s.idxOf? '.' with
  | none =>
      obtain ⟨-, w, reads, -⟩ := (torInetPton6_plain_iff (List.idxOf?_eq_none_iff.mp found)).mp valid
      intro c mem
      obtain digit | colon := reads.chars c mem
      · exact .inl digit
      · exact .inr (.inl colon)
  | some dot =>
      obtain ⟨front, quad, w, rfl, -, scanned, reads⟩ := torInetPton6_dotted found valid
      obtain ⟨octets, scanned⟩ := Option.isSome_iff_exists.mp scanned
      intro c mem
      obtain mem | mem := List.mem_append.mp mem
      · obtain digit | colon := reads.chars c mem
        · exact .inl digit
        · exact .inr (.inl colon)
      · obtain digit | dot := (scanQuad_chars scanned).2 c mem
        · refine .inl ?_
          rw [torIsxdigit, digit, Bool.true_or, Bool.true_or]
        · exact .inr (.inr dot)

end Characters

/-! ## Ports behind -/

section Ports
variable {dest s : Text} {port n : Nat}

theorem torIsxdigit_of_digit {c : Char} (digit : torIsdigit c = true) : torIsxdigit c = true := by
  rw [torIsxdigit, digit, Bool.true_or, Bool.true_or]

theorem decimalDigits_ne_nil (n : Nat) : decimalDigits n ≠ [] := Nat.toDigits_ne_nil

theorem not_mem_decimalDigits {c : Char} (noDigit : torIsdigit c = false) : c ∉ decimalDigits n := fun mem => by
  rw [torIsdigit_decimalDigits n c mem] at noDigit
  cases noDigit

theorem mem_withPort {c : Char} : c ∈ withPort dest port ↔ c ∈ dest ∨ c = ':' ∨ c ∈ decimalDigits port := by
  rw [withPort, List.mem_append, List.mem_cons]

theorem noDot_withPort (noDot : '.' ∉ dest) : '.' ∉ withPort dest port := by
  rw [mem_withPort]
  rintro (mem | mem | mem)
  · exact noDot mem
  · cases mem
  · exact not_mem_decimalDigits rfl mem

theorem withPort_last : ∃ c, (withPort dest port).getLast? = some c ∧ torIsdigit c = true := by
  have last := List.getLast?_eq_some_getLast (decimalDigits_ne_nil port)
  refine ⟨_, ?_, torIsdigit_decimalDigits _ _ (List.getLast_mem (decimalDigits_ne_nil port))⟩
  rw [withPort, List.getLast?_append, List.getLast?_cons, last, Option.getD_some, Option.some_or]

theorem withPort_last_ne {c : Char} (noDigit : torIsdigit c = false) : (withPort dest port).getLast? ≠ some c := by
  obtain ⟨d, last, digit⟩ := @withPort_last dest port
  intro same
  rw [same] at last
  rw [← Option.some.inj last, noDigit] at digit
  cases digit

theorem torAddrParse_withPort :
    (torAddrParse (withPort dest port)).any TorAddr.isV6 = stringIsValidIpv6Address (withPort dest port) := by
  have noBrackets : ¬ ((withPort dest port).head? = some '[' ∧ (withPort dest port).getLast? = some ']') :=
    fun both => withPort_last_ne (by decide) both.2
  have noV4 : torInetAton (withPort dest port) = none := by
    by_contra some
    obtain digit | dot :=
      (torInetAton_chars (Option.isSome_iff_ne_none.mpr some)).2 ':' (mem_withPort.mpr (.inr (.inl rfl)))
    · exact absurd digit (by decide)
    · exact absurd dot (by decide)
  rw [torAddrParse, torAddrParseImpl]
  simp only [noBrackets, if_false, or_true, if_true, noV4, Option.map_none, Option.none_or]
  rw [stringIsValidIpv6Address]
  cases torInetPton6 (withPort dest port) <;> rfl

theorem withPort_of_dot (dot : '.' ∈ dest) : ¬ stringIsValidIpv6Address (withPort dest port) = true := by
  intro valid
  obtain ⟨before, after, rfl, noDot⟩ := List.eq_append_cons_of_mem dot
  have whole : withPort (before ++ '.' :: after) port = before ++ '.' :: (after ++ ':' :: decimalDigits port) := by
    rw [withPort, List.append_assoc, List.cons_append]
  have found : (withPort (before ++ '.' :: after) port).idxOf? '.' = some before.length := by
    rw [whole, List.idxOf?, List.findIdx?_append, ← List.idxOf?, List.idxOf?_eq_none_iff.mpr noDot]
    simp [List.idxOf?_cons]
  obtain ⟨front, quad, w, split, short, scanned, -⟩ := torInetPton6_dotted found valid
  obtain ⟨octets, scanned⟩ := Option.isSome_iff_exists.mp scanned
  have colon : ':' ∈ quad := by
    rw [whole] at split
    obtain ⟨t, rfl⟩ := List.prefix_of_prefix_length_le ⟨quad, split.symm⟩ ⟨_, rfl⟩ short
    rw [List.append_assoc] at split
    rw [← List.append_cancel_left split]
    simp
  obtain digit | dot := (scanQuad_chars scanned).2 ':' colon
  · exact absurd digit (by decide)
  · exact absurd dot (by decide)

theorem digit_words : ∀ c ∈ decimalDigits port, torIsxdigit c = true := fun c mem =>
  torIsxdigit_of_digit (torIsdigit_decimalDigits port c mem)

theorem append_colon_inj {a b t u : Text} (left : ':' ∉ a) (right : ':' ∉ b) (same : a ++ ':' :: t = b ++ ':' :: u) :
    a = b ∧ t = u := by
  have first {a t : Text} (noColon : ':' ∉ a) : (a ++ ':' :: t).takeWhile (· ≠ ':') = a :=
    takeWhile_append (fun c mem => decide_eq_true fun colon => noColon (colon ▸ mem)) fun c head => by
      rw [← Option.some.inj head]
      rfl
  have fronts : a = b := by rw [← @first a t left, same, first right]
  subst fronts
  exact ⟨rfl, (List.cons.inj (List.append_cancel_left same)).2⟩

theorem withPort_of_name (nonempty : dest ≠ []) (noColon : ':' ∉ dest) :
    ¬ stringIsValidIpv6Address (withPort dest port) = true := by
  by_cases dot : '.' ∈ dest
  · exact withPort_of_dot dot
  rw [torInetPton6_plain_iff (noDot_withPort dot)]
  rintro ⟨-, w, reads, filled⟩
  obtain ⟨written, noGap⟩ : w.words.length = 2 ∧ w.gapPos = none := by
    have other {t : Text} : dest ++ ':' :: decimalDigits port ≠ ':' :: t := by
      obtain ⟨c, t, rfl⟩ := List.exists_cons_of_ne_nil nonempty
      exact fun same => noColon ((List.cons.inj same).1 ▸ List.mem_cons_self)
    rw [withPort] at reads
    generalize whole : dest ++ ':' :: decimalDigits port = s at reads
    generalize start : (⟨[], none⟩ : Words) = w₀ at reads
    cases reads with
    | nil => exact absurd whole (by simp)
    | last isWord => exact absurd (whole ▸ List.mem_append_right dest List.mem_cons_self) isWord.noColon
    | word isWord room more =>
        obtain ⟨-, rest⟩ := append_colon_inj noColon isWord.noColon whole
        rw [← rest, Reads.last_iff (decimalDigits_ne_nil port) digit_words] at more
        obtain ⟨-, -, rfl⟩ := more
        rw [← start]
        exact ⟨rfl, rfl⟩
    | start => exact absurd whole other
    | gap => exact absurd whole other
  rw [fillGap, noGap] at filled
  dsimp only at filled
  rw [List.length_nil, written, if_neg (by decide)] at filled
  cases filled

theorem withPort_of_v6 (valid : stringIsValidIpv6Address dest = true) (noDot : '.' ∉ dest) :
    stringIsValidIpv6Address (withPort dest port) = true ↔
      dest.getLast? ≠ some ':' ∧ wordsWritten dest ≤ 6 ∧ port < 10000 := by
  have noDot' : '.' ∉ withPort dest port := noDot_withPort noDot
  obtain ⟨proper, w, reads, filled⟩ := (torInetPton6_plain_iff noDot).mp valid
  have proper' : ¬ (2 < (withPort dest port).length ∧ (withPort dest port).getLast? = some ':' ∧
      (withPort dest port).dropLast.getLast? ≠ some ':') := fun all => withPort_last_ne (by decide) all.2.1
  rw [torInetPton6_plain_iff noDot', and_iff_right proper']
  have count : w.words.length = wordsWritten dest := by rw [reads.count, List.length_nil, Nat.zero_add, wordsWritten]
  have nonempty : dest ≠ [] := by
    rintro rfl
    cases valid
  by_cases last : dest.getLast? = some ':'
  · have gap : w.gapPos ≠ none := by
      by_cases long : 2 < dest.length
      · have double : dest.dropLast.getLast? = some ':' := by
          by_contra other
          exact proper ⟨long, last, other⟩
        refine reads.gap_of_end ?_
        obtain ⟨front, rfl⟩ := List.getLast?_eq_some_iff.mp last
        rw [List.dropLast_concat] at double
        obtain ⟨front, rfl⟩ := List.getLast?_eq_some_iff.mp double
        exact ⟨':' :: front, by simp⟩
      · intro noGap
        rw [fillGap, noGap] at filled
        dsimp only at filled
        have few : w.words.length ≤ 0 + dest.length := reads.length_le
        rw [List.length_nil, if_neg (by omega)] at filled
        cases filled
    refine iff_of_false ?_ fun all => all.1 last
    rintro ⟨w', reads', -⟩
    exact Reads.no_gap gap ((reads.append_colon (.inr last)).mp reads')
  · have short : (decimalDigits port).length ≤ 4 ↔ port < 10000 := by
      rw [decimalDigits, Nat.length_toDigits_le_iff (by decide) (by decide)]
    rw [and_iff_right last, ← count, ← short]
    have behind (w' : Words) := @Reads.append_iff dest (decimalDigits port) _ w w' reads nonempty last
      (decimalDigits_ne_nil port) digit_words
    constructor
    · rintro ⟨w', reads', filled'⟩
      obtain ⟨room, four, rfl⟩ := (behind w').mp reads'
      refine ⟨?_, four⟩
      cases gap : w.gapPos with
      | none =>
          rw [fillGap, gap] at filled
          dsimp only at filled
          rw [List.length_nil, if_neg (by omega)] at filled
          cases filled
      | some pos =>
          by_contra many
          rw [fillGap, Words.push, gap] at filled'
          dsimp only at filled'
          rw [List.length_append, List.length_singleton, List.length_nil, if_neg (by omega)] at filled'
          cases filled'
    · rintro ⟨room, four⟩
      refine ⟨_, (behind _).mpr ⟨by omega, four, rfl⟩, ?_⟩
      cases gap : w.gapPos with
      | none =>
          rw [fillGap, gap] at filled
          dsimp only at filled
          rw [List.length_nil, if_neg (by omega)] at filled
          cases filled
      | some pos =>
          rw [fillGap, Words.push, gap]
          dsimp only
          rw [List.length_append, List.length_singleton, List.length_nil, if_pos (by omega)]
          rfl

theorem mem_splitOn {c sep : Char} (mem : c ∈ s) (other : c ≠ sep) : ∃ t ∈ s.splitOn sep, c ∈ t := by
  induction s with
  | nil => cases mem
  | cons d s ih =>
      rw [List.splitOn_cons_eq_if_modifyHead]
      split
      · rename_i same
        obtain rfl | mem := List.mem_cons.mp mem
        · exact absurd (beq_iff_eq.mp same) other
        · obtain ⟨t, piece, inside⟩ := ih mem
          exact ⟨t, List.mem_cons_of_mem _ piece, inside⟩
      · cases pieces : s.splitOn sep with
        | nil => exact absurd pieces (List.splitOn_ne_nil sep s)
        | cons first others =>
            rw [List.modifyHead_cons]
            obtain rfl | mem := List.mem_cons.mp mem
            · exact ⟨_, List.mem_cons_self, List.mem_cons_self⟩
            · obtain ⟨t, piece, inside⟩ := ih mem
              rw [pieces] at piece
              obtain rfl | piece := List.mem_cons.mp piece
              · exact ⟨_, List.mem_cons_self, List.mem_cons_of_mem _ inside⟩
              · exact ⟨t, List.mem_cons_of_mem _ piece, inside⟩

theorem hostname_chars (valid : stringIsValidNonrfcHostname s = true) : ∀ c ∈ s, isHostChar c = true ∨ c = '.' := by
  unfold stringIsValidNonrfcHostname at valid
  split at valid
  · cases valid
  split at valid
  · cases valid
  dsimp only at valid
  intro c mem
  by_cases dot : c = '.'
  · exact .inr dot
  obtain ⟨t, piece, inside⟩ := mem_splitOn mem dot
  have kept : t ∈ if (s.splitOn '.').getLast? = some [] then (s.splitOn '.').dropLast else s.splitOn '.' := by
    split
    · rename_i trailing
      obtain ⟨front, split⟩ := List.getLast?_eq_some_iff.mp trailing
      rw [split] at piece ⊢
      rw [List.dropLast_concat]
      obtain piece | piece := List.mem_append.mp piece
      · exact piece
      · rw [List.mem_singleton.mp piece] at inside
        cases inside
    · exact piece
  have label := List.all_eq_true.mp valid t kept
  simp only [Bool.and_eq_true] at label
  exact .inl (List.all_eq_true.mp label.2 c inside)

theorem stringIsValidDest_cases (valid : stringIsValidDest dest = true) :
    dest ≠ [] ∧ (dest.head? = some '[' ∨ stringIsValidIpv4Address dest = true ∨ stringIsValidIpv6Address dest = true ∨
      ∀ c ∈ dest, isHostChar c = true ∨ c = '.') := by
  unfold stringIsValidDest at valid
  split at valid
  · cases valid
  rename_i nonempty
  refine ⟨fun empty => nonempty (List.isEmpty_iff.mpr empty), ?_⟩
  dsimp only at valid
  split at valid
  · rename_i brackets
    exact .inl brackets.1
  · rw [Bool.or_eq_true, Bool.or_eq_true] at valid
    obtain (v4 | v6) | name := valid
    · exact .inr (.inl v4)
    · exact .inr (.inr (.inl v6))
    · exact .inr (.inr (.inr (hostname_chars name)))

theorem stringIsValidDest_ascii (valid : stringIsValidDest dest = true) : ∀ c ∈ dest, 0 < c.toNat ∧ c.toNat < 128 := by
  have range {lo hi c : Char} (low : lo ≤ c) (high : c ≤ hi) (above : 0 < lo.toNat) (below : hi.toNat < 128) :
      0 < c.toNat ∧ c.toNat < 128 :=
    ⟨Nat.lt_of_lt_of_le above (UInt32.le_iff_toNat_le.mp low), Nat.lt_of_le_of_lt (UInt32.le_iff_toNat_le.mp high) below⟩
  have host {c : Char} (isHost : isHostChar c = true) : 0 < c.toNat ∧ c.toNat < 128 := by
    simp only [isHostChar, torIsalpha, torIsdigit, Bool.or_eq_true, Bool.and_eq_true, decide_eq_true_eq] at isHost
    obtain (((⟨low, high⟩ | ⟨low, high⟩) | ⟨low, high⟩) | rfl) | rfl := isHost
    · exact range low high (by decide) (by decide)
    · exact range low high (by decide) (by decide)
    · exact range low high (by decide) (by decide)
    · decide
    · decide
  have digit {c : Char} (isDigit : torIsdigit c = true) : 0 < c.toNat ∧ c.toNat < 128 :=
    host (by rw [isHostChar, isDigit, Bool.or_true, Bool.true_or, Bool.true_or])
  have address {s : Text} (valid : stringIsValidIpv4Address s = true ∨ stringIsValidIpv6Address s = true ∨
      stringIsValidNonrfcHostname s = true) : ∀ c ∈ s, 0 < c.toNat ∧ c.toNat < 128 := by
    intro c mem
    obtain v4 | v6 | name := valid
    · obtain isDigit | rfl := (torInetAton_chars v4).2 c mem
      · exact digit isDigit
      · decide
    · obtain isXdigit | rfl | rfl := torInetPton6_chars v6 c mem
      · simp only [torIsxdigit, Bool.or_eq_true, Bool.and_eq_true, decide_eq_true_eq] at isXdigit
        obtain (isDigit | ⟨low, high⟩) | ⟨low, high⟩ := isXdigit
        · exact digit isDigit
        · exact range low high (by decide) (by decide)
        · exact range low high (by decide) (by decide)
      · decide
      · decide
    · obtain isHost | rfl := hostname_chars name c mem
      · exact host isHost
      · decide
  unfold stringIsValidDest at valid
  split at valid
  · cases valid
  dsimp only at valid
  rw [Bool.or_eq_true, Bool.or_eq_true, or_assoc] at valid
  split at valid
  · rename_i brackets
    intro c mem
    obtain ⟨front, rfl⟩ := List.getLast?_eq_some_iff.mp brackets.2
    obtain mem | mem := List.mem_append.mp mem
    · obtain _ | ⟨d, front⟩ := front
      · cases mem
      obtain rfl | mem := List.mem_cons.mp mem
      · rw [Option.some.inj brackets.1]
        decide
      · refine address valid c ?_
        rwa [List.cons_append, List.tail_cons, List.dropLast_concat]
    · rw [List.mem_singleton.mp mem]
      decide
  · exact address valid

theorem withPort_iff (valid : stringIsValidDest dest = true) :
    stringIsValidIpv6Address (withPort dest port) = true ↔ Extends dest port := by
  obtain ⟨nonempty, kind⟩ := stringIsValidDest_cases valid
  by_cases dot : '.' ∈ dest
  · exact iff_of_false (withPort_of_dot dot) fun all => all.2.1 dot
  by_cases v6 : stringIsValidIpv6Address dest = true
  · rw [withPort_of_v6 v6 dot, Extends, and_iff_right v6, and_iff_right dot]
  refine iff_of_false ?_ fun all => v6 all.1
  obtain bracket | v4 | v6' | name := kind
  · intro address
    have first : '[' ∈ withPort dest port := mem_withPort.mpr (.inl (List.mem_of_head? bracket))
    exact absurd (torInetPton6_chars address '[' first) (by decide)
  · exact absurd (torInetAton_chars v4).1 dot
  · exact absurd v6' v6
  · refine withPort_of_name nonempty fun colon => ?_
    exact absurd (name ':' colon) (by decide)

theorem withPort_ascii
    (valid : stringIsValidDest dest = true) : ∀ c ∈ withPort dest port, 0 < c.toNat ∧ c.toNat < 128 := by
  intro c mem
  obtain mem | rfl | mem := mem_withPort.mp mem
  · exact stringIsValidDest_ascii valid c mem
  · decide
  · have digit := torIsdigit_decimalDigits port c mem
    rw [torIsdigit, Bool.and_eq_true, decide_eq_true_eq, decide_eq_true_eq] at digit
    exact ⟨Nat.lt_of_lt_of_le (by decide) (UInt32.le_iff_toNat_le.mp digit.1),
      Nat.lt_of_le_of_lt (UInt32.le_iff_toNat_le.mp digit.2) (by decide)⟩

theorem torParseLong_decimalDigits (low : 1 ≤ port) (high : port ≤ 65535) :
    torParseLong (decimalDigits port) 1 65535 = port := by
  have read : strtolDecimal (decimalDigits port) = some (false, port, []) :=
    strtolDecimal_iff.mpr ⟨decimalDigits port, (List.append_nil _).symm,
      ⟨[], [], decimalDigits port, rfl, by simp, .inl rfl, decimalDigits_ne_nil port, torIsdigit_decimalDigits port,
        decimal_toDigits port⟩, by simp⟩
  rw [torParseLong, read]
  dsimp only
  rw [if_neg Bool.false_ne_true, if_neg (by omega)]

theorem torAddrPortSplit_withPort (valid : stringIsValidDest dest = true) (low : 1 ≤ port) (high : port ≤ 65535) :
    torAddrPortSplit (withPort dest port) =
      some (if Extends dest port then (withPort dest port, 0) else (dest, port)) := by
  rw [torAddrPortSplit, torAddrParse_withPort]
  by_cases whole : stringIsValidIpv6Address (withPort dest port) = true
  · rw [if_pos whole, if_pos ((withPort_iff valid).mp whole)]
  · have noColon : ':' ∉ decimalDigits port := not_mem_decimalDigits rfl
    rw [if_neg whole, if_neg (mt (withPort_iff valid).mpr whole), withPort, splitLastColon_append dest noColon]
    dsimp only
    rw [torParseLong_decimalDigits low high, Int.toNat_natCast, if_neg (by omega)]

end Ports
end TorJet.Net
