import TorJet.Base.Spans
import TorJet.Base.Text
import TorJet.Net.CString
import TorJet.Net.Dest

/-!
# Texts that are split

`smartlist_split_string` with a separator, and what comes back of items that are joined by it.
-/

namespace TorJet.Net
open Base

/-- `smartlist_split_string` with `SPLIT_SKIP_SPACE|SPLIT_IGNORE_BLANK`. -/
def smartlistSplitString (sep : Char) (s : Text) : List Text :=
  ((s.splitOn sep).map fun item => (item.dropWhile torIsspace).rdropWhile torIsspace).filter (!·.isEmpty)

structure IsItem (sep : Char) (t : Text) : Prop where
  whole : sep ∉ t
  some : t ≠ []
  first : ∀ c ∈ t.head?, torIsspace c = false
  last : ∀ c ∈ t.getLast?, torIsspace c = false

section Items
variable {sep : Char} {s t : Text} {items front back : List Text}

theorem isItem_of_black (space : torIsspace sep = true) (some : t ≠ []) (black : ∀ c ∈ t, torIsspace c = false) :
    IsItem sep t where
  whole mem := by
    rw [black sep mem] at space
    cases space
  some := some
  first c head := black c (List.mem_of_mem_head? head)
  last c tail := black c (List.mem_of_mem_getLast? tail)

theorem IsItem.trim (item : IsItem sep t) : (t.dropWhile torIsspace).rdropWhile torIsspace = t := by
  obtain ⟨c, rest, rfl⟩ := List.exists_cons_of_ne_nil item.some
  rw [List.dropWhile_cons_of_neg (by rw [item.first c rfl]; exact Bool.false_ne_true), List.rdropWhile_eq_self_iff]
  intro nonempty
  rw [item.last _ (List.getLast_mem_getLast? nonempty)]
  exact Bool.false_ne_true

theorem smartlistSplitString_join (all : ∀ t ∈ items, IsItem sep t) :
    smartlistSplitString sep ([sep].intercalate items) = items := by
  cases items with
  | nil => rfl
  | cons t rest =>
      rw [smartlistSplitString, List.splitOn_intercalate sep (fun t mem => (all t mem).whole) (List.cons_ne_nil t rest)]
      have trimmed : (t :: rest).map (fun item => (item.dropWhile torIsspace).rdropWhile torIsspace) = t :: rest :=
        (List.map_congr_left fun t mem => (all t mem).trim).trans (List.map_id _)
      rw [trimmed, List.filter_eq_self]
      intro t mem
      rw [List.isEmpty_eq_false_iff.mpr (all t mem).some, Bool.not_false]

theorem trim_ends {word : Text} (some : (word.dropWhile torIsspace).rdropWhile torIsspace ≠ []) :
    (∀ c ∈ ((word.dropWhile torIsspace).rdropWhile torIsspace).head?, torIsspace c = false) ∧
      ∀ c ∈ ((word.dropWhile torIsspace).rdropWhile torIsspace).getLast?, torIsspace c = false := by
  have kept : (word.dropWhile torIsspace).rdropWhile torIsspace <+: word.dropWhile torIsspace :=
    List.rdropWhile_prefix _ _
  constructor
  · intro c head
    refine dropWhile_stops torIsspace word c ?_
    obtain ⟨rest, cut⟩ := List.head?_eq_some_iff.mp head
    rw [cut] at kept
    obtain ⟨more, same⟩ := kept
    rw [← same]
    rfl
  · intro c tail
    rw [List.getLast?_eq_some_getLast some, Option.mem_some_iff] at tail
    rw [← tail]
    exact eq_false_of_ne_true (List.rdropWhile_last_not _ _ some)

theorem mem_of_mem_trim {word : Text} {c : Char} (mem : c ∈ (word.dropWhile torIsspace).rdropWhile torIsspace) : c ∈ word :=
  (List.dropWhile_sublist _).subset ((List.rdropWhile_prefix _ _).subset mem)

theorem isItem_of_mem (mem : t ∈ smartlistSplitString sep s) : IsItem sep t := by
  obtain ⟨mem, nonempty⟩ := List.mem_filter.mp mem
  obtain ⟨word, inWords, rfl⟩ := List.mem_map.mp mem
  have some : (word.dropWhile torIsspace).rdropWhile torIsspace ≠ [] := by
    intro empty
    rw [empty] at nonempty
    cases nonempty
  obtain ⟨first, last⟩ := trim_ends some
  refine ⟨fun inside => ?_, some, first, last⟩
  have black := Text.mem_splitOnP_black inWords sep (mem_of_mem_trim inside)
  rw [beq_self_eq_true] at black
  cases black

theorem intercalate_append (front : List Text) (some : back ≠ []) :
    [sep].intercalate (front ++ [[sep].intercalate back]) = [sep].intercalate (front ++ back) := by
  induction front with
  | nil => rw [List.nil_append, List.nil_append, List.intercalate_singleton]
  | cons t front ih =>
      rw [List.cons_append, List.cons_append, List.intercalate_cons_of_ne_nil (by simp),
        List.intercalate_cons_of_ne_nil (by simp [some]), ih]

end Items
end TorJet.Net

/-!
## Addresses with a port

An address and a port as one text, and that what is read from such a text is an address.
-/

namespace TorJet.Net
open Base

def fmtAndDecorateAddr (addr : TorAddr) : Text := torAddrToStr addr true

/-- `tor_addr_port_parse` without a default port. -/
def torAddrPortParseNoDefault (addrport : Text) : Option (TorAddr × Nat) := do
  let (address, port) ← torAddrPortSplit addrport
  if port = 0 then none
  else
    let addr ← torAddrParseImpl address false
    return (addr, port)

section Sizes
variable {s src : Text} {a n : Nat} {quad words : List Nat} {w w' : Words} {addr : TorAddr} {port : Nat}

theorem Reads.small (reads : Reads s w w') (small : ∀ v ∈ w.words, v < 65536) : ∀ v ∈ w'.words, v < 65536 := by
  have pushed {word : Text} {w : Words} (isWord : IsWord word) (small : ∀ v ∈ w.words, v < 65536) :
      ∀ v ∈ (w.push [hexadecimal word]).words, v < 65536 := by
    intro v mem
    rw [Words.push, List.mem_append, List.mem_singleton] at mem
    obtain mem | rfl := mem
    · exact small v mem
    · exact Nat.lt_of_lt_of_le (Inaddr.hexadecimal_lt isWord.2.1) (Nat.pow_le_pow_right (by decide) isWord.2.2)
  induction reads with
  | nil => exact small
  | last isWord => exact pushed isWord small
  | word isWord _ _ ih => exact ih (pushed isWord small)
  | start _ _ _ ih => exact ih small
  | gap _ _ _ _ ih => exact ih small

theorem joinOctets_pair {a b : Nat} (first : a ≤ 255) (second : b ≤ 255) : joinOctets [a, b] < 65536 := by
  have value : joinOctets [a, b] = (0 * 256 + a) * 256 + b := rfl
  omega

theorem scanQuad_length (read : scanQuad s = some quad) : ∃ a b c d, quad = [a, b, c, d] := by
  unfold scanQuad at read
  obtain ⟨⟨a, s₁⟩, -, read⟩ := Option.bind_eq_some_iff.mp read
  obtain ⟨⟨b, s₂⟩, -, read⟩ := Option.bind_eq_some_iff.mp read
  obtain ⟨⟨c, s₃⟩, -, read⟩ := Option.bind_eq_some_iff.mp read
  obtain ⟨⟨d, s₄⟩, -, read⟩ := Option.bind_eq_some_iff.mp read
  dsimp only at read
  split at read
  · exact ⟨a, b, c, d, (Option.some.inj read).symm⟩
  · cases read

theorem octets_small {a b c d : Nat} (small : ¬ [a, b, c, d].any (255 < ·) = true) :
    (a ≤ 255 ∧ b ≤ 255) ∧ c ≤ 255 ∧ d ≤ 255 := by
  rw [List.any_eq_true, not_exists] at small
  have le {n : Nat} (mem : n ∈ [a, b, c, d]) : n ≤ 255 := by
    by_contra large
    exact small n ⟨mem, decide_eq_true (Nat.not_le.mp large)⟩
  exact ⟨⟨le (by simp), le (by simp)⟩, le (by simp), le (by simp)⟩

theorem fillGap_valid (small : ∀ v ∈ w.words, v < 65536) (quads : ∀ v ∈ quad, v < 65536)
    (filled : fillGap w quad = some words) : words.length = 8 ∧ ∀ v ∈ words, v < 65536 := by
  unfold fillGap at filled
  dsimp only at filled
  split at filled
  · split at filled
    · rename_i eight
      rw [← Option.some.inj filled]
      exact ⟨by rw [List.length_append, eight], List.forall_mem_append.mpr ⟨small, quads⟩⟩
    · cases filled
  · rename_i gap _
    split at filled
    · rw [← Option.some.inj filled]
      refine ⟨?_, fun v mem => ?_⟩
      · simp only [List.length_append, List.length_take, List.length_drop, List.length_replicate]
        omega
      · rw [List.mem_append, List.mem_append, List.mem_append, List.mem_replicate] at mem
        obtain ((mem | ⟨-, rfl⟩) | mem) | mem := mem
        · exact small v (List.mem_of_mem_take mem)
        · decide
        · exact small v (List.mem_of_mem_drop mem)
        · exact quads v mem
    · cases filled

theorem torInetPton6_valid (read : torInetPton6 s = some words) : words.length = 8 ∧ ∀ v ∈ words, v < 65536 := by
  have none : ∀ v ∈ (⟨[], Option.none⟩ : Words).words, v < 65536 := fun v mem => by cases mem
  unfold torInetPton6 at read
  split at read
  · cases read
  split at read
  · obtain ⟨w, loop, filled⟩ := Option.bind_eq_some_iff.mp read
    exact fillGap_valid (((readWords_iff le_rfl).mp loop).small none) (fun v mem => by cases mem) filled
  · dsimp only at read
    split at read
    · cases read
    obtain ⟨quad, scanned, read⟩ := Option.bind_eq_some_iff.mp read
    split at read
    · cases read
    rename_i octets
    obtain ⟨w, loop, filled⟩ := Option.bind_eq_some_iff.mp read
    obtain ⟨a, b, c, d, rfl⟩ := scanQuad_length scanned
    obtain ⟨⟨first, second⟩, third, fourth⟩ := octets_small octets
    refine fillGap_valid (((readWords_iff le_rfl).mp loop).small none) (fun v mem => ?_) filled
    rw [List.mem_cons, List.mem_singleton] at mem
    obtain rfl | rfl := mem
    · exact joinOctets_pair first second
    · exact joinOctets_pair third fourth

theorem torInetAton_lt (read : torInetAton s = some a) : a < 2 ^ 32 := by
  unfold torInetAton at read
  obtain ⟨quad, scanned, read⟩ := Option.bind_eq_some_iff.mp read
  dsimp only at read
  split at read
  · cases read
  rename_i bad
  rw [Bool.or_eq_true, not_or] at bad
  obtain ⟨a, b, c, d, rfl⟩ := scanQuad_length scanned
  obtain ⟨⟨first, second⟩, third, fourth⟩ := octets_small bad.2
  have value : joinOctets [a, b, c, d] = (((0 * 256 + a) * 256 + b) * 256 + c) * 256 + d := rfl
  rw [← Option.some.inj read, value]
  omega

theorem torAddrParseImpl_valid {allow : Bool} (read : torAddrParseImpl src allow = some addr) : addr.Valid := by
  unfold torAddrParseImpl at read
  dsimp only at read
  rw [Option.or_eq_some_iff] at read
  obtain v4 | ⟨-, v6⟩ := read
  · obtain ⟨a, read, rfl⟩ := Option.map_eq_some_iff.mp v4
    split at read
    · cases read
    · exact torInetAton_lt read
  · obtain ⟨words, read, rfl⟩ := Option.map_eq_some_iff.mp v6
    split at read
    · exact torInetPton6_valid read
    · cases read

end Sizes

section Text
variable {addr : TorAddr} {a port : Nat} {words : List Nat}

theorem torAddrParseImpl_ntoa (small : a < 2 ^ 32) : torAddrParseImpl (torInetNtoa a) false = some (.inet a) := by
  have read := torInetAton_torInetNtoa small
  have noBracket : ¬ ((torInetNtoa a).head? = some '[' ∧ (torInetNtoa a).getLast? = some ']') := by
    rintro ⟨head, -⟩
    obtain digit | dot := (torInetAton_chars (Option.isSome_of_eq_some read)).2 '[' (List.mem_of_mem_head? head)
    · exact absurd digit (by decide)
    · exact absurd dot (by decide)
  rw [torAddrParseImpl]
  simp only [noBracket, if_false, read, Bool.false_eq_true, or_self]
  rfl

theorem torAddrParseImpl_ntop6 (length : words.length = 8) (small : ∀ w ∈ words, w < 65536) :
    torAddrParseImpl ('[' :: torInetNtop6 words ++ [']']) false = some (.inet6 words) := by
  have read := (torInetPton6_torInetNtop6 length small).1
  have brackets : ('[' :: torInetNtop6 words ++ [']']).head? = some '[' ∧
      ('[' :: torInetNtop6 words ++ [']']).getLast? = some ']' := ⟨rfl, List.getLast?_concat⟩
  have inner : ('[' :: torInetNtop6 words ++ [']']).tail.dropLast = torInetNtop6 words := List.dropLast_concat
  rw [torAddrParseImpl]
  simp only [brackets, and_self, if_true, inner, true_or, read]
  rfl

theorem torAddrParseImpl_fmt (valid : addr.Valid) : torAddrParseImpl (fmtAndDecorateAddr addr) false = some addr := by
  cases addr with
  | inet a => exact torAddrParseImpl_ntoa valid
  | inet6 words => exact torAddrParseImpl_ntop6 valid.1 valid.2

theorem fmtAndDecorateAddr_whole (valid : addr.Valid) :
    ¬ stringIsValidIpv6Address (withPort (fmtAndDecorateAddr addr) port) = true := by
  cases addr with
  | inet a =>
      exact withPort_of_dot (torInetAton_chars (Option.isSome_of_eq_some (torInetAton_torInetNtoa valid))).1
  | inet6 words =>
      intro whole
      have bracket : '[' ∈ withPort (fmtAndDecorateAddr (.inet6 words)) port := List.mem_cons_self
      obtain digit | colon | dot := torInetPton6_chars whole '[' bracket
      · exact absurd digit (by decide)
      · exact absurd colon (by decide)
      · exact absurd dot (by decide)

theorem torAddrPortParseNoDefault_withPort (valid : addr.Valid) (low : 1 ≤ port) (high : port ≤ 65535) :
    torAddrPortParseNoDefault (withPort (fmtAndDecorateAddr addr) port) = some (addr, port) := by
  have noColon : ':' ∉ decimalDigits port := not_mem_decimalDigits rfl
  have split : torAddrPortSplit (withPort (fmtAndDecorateAddr addr) port) = some (fmtAndDecorateAddr addr, port) := by
    rw [torAddrPortSplit, torAddrParse_withPort, if_neg (fmtAndDecorateAddr_whole valid), withPort,
      splitLastColon_append _ noColon]
    dsimp only
    rw [torParseLong_decimalDigits low high, Int.toNat_natCast, if_neg (by omega)]
  rw [torAddrPortParseNoDefault, split, Option.bind_eq_bind, Option.bind_some]
  dsimp only
  rw [if_neg (by omega), torAddrParseImpl_fmt valid]
  rfl

theorem torIsspace_of_xdigit {c : Char} (digit : torIsxdigit c = true) : torIsspace c = false := by
  simp only [torIsxdigit, torIsdigit, Bool.or_eq_true, Bool.and_eq_true, decide_eq_true_eq, Char.le_def,
    UInt32.le_iff_toNat_le] at digit
  have code : 48 ≤ c.toNat := by
    obtain (⟨low, -⟩ | ⟨low, -⟩) | ⟨low, -⟩ := digit
    · exact low
    · exact Nat.le_trans (by decide) low
    · exact Nat.le_trans (by decide) low
  rw [torIsspace, Bool.or_eq_false_iff, Bool.and_eq_false_iff, decide_eq_false_iff_not, decide_eq_false_iff_not,
    decide_eq_false_iff_not]
  refine ⟨.inr (by omega), fun blank => ?_⟩
  rw [blank] at code
  exact absurd code (by decide)

theorem withPort_black (valid : addr.Valid) : ∀ c ∈ withPort (fmtAndDecorateAddr addr) port, torIsspace c = false := by
  have front : ∀ c ∈ fmtAndDecorateAddr addr, torIsspace c = false := by
    cases addr with
    | inet a =>
        intro c mem
        obtain digit | rfl := (torInetAton_chars (Option.isSome_of_eq_some (torInetAton_torInetNtoa valid))).2 c mem
        · exact digit_notSpace digit
        · rfl
    | inet6 words =>
        have read := (torInetPton6_torInetNtop6 valid.1 valid.2).1
        intro c mem
        obtain mem | mem := List.mem_append.mp (show c ∈ ('[' :: torInetNtop6 words) ++ [']'] from mem)
        · obtain rfl | mem := List.mem_cons.mp mem
          · rfl
          · obtain digit | rfl | rfl := torInetPton6_chars (Option.isSome_of_eq_some read) c mem
            · exact torIsspace_of_xdigit digit
            · rfl
            · rfl
        · rw [List.mem_singleton.mp mem]
          rfl
  intro c mem
  obtain mem | rfl | mem := mem_withPort.mp mem
  · exact front c mem
  · rfl
  · exact digit_notSpace (torIsdigit_decimalDigits port c mem)

theorem torParseLong_le (s : Text) : (torParseLong s 1 65535).toNat ≤ 65535 := by
  unfold torParseLong
  split
  · dsimp only
    split <;> omega
  · decide

theorem torAddrPortParseNoDefault_valid {addrport : Text}
    (read : torAddrPortParseNoDefault addrport = some (addr, port)) :
    addr.Valid ∧ 1 ≤ port ∧ port ≤ 65535 := by
  unfold torAddrPortParseNoDefault at read
  obtain ⟨⟨address, n⟩, split, read⟩ := Option.bind_eq_some_iff.mp read
  dsimp only at read
  split at read
  · cases read
  rename_i nonzero
  obtain ⟨addr', parsed, same⟩ := Option.bind_eq_some_iff.mp read
  obtain ⟨rfl, rfl⟩ := Prod.mk.inj (Option.some.inj same)
  refine ⟨torAddrParseImpl_valid parsed, by omega, ?_⟩
  unfold torAddrPortSplit at split
  split at split
  · obtain ⟨-, rfl⟩ := Prod.mk.inj (Option.some.inj split)
    exact Nat.zero_le _
  split at split
  · obtain ⟨-, rfl⟩ := Prod.mk.inj (Option.some.inj split)
    exact Nat.zero_le _
  · dsimp only at split
    split at split
    · cases split
    · obtain ⟨-, rfl⟩ := Prod.mk.inj (Option.some.inj split)
      exact torParseLong_le _

end Text
end TorJet.Net
