import TorJet.Protover.Codec

/-!
# Encoding and parsing protocol lists

An encoded list is parsed back as it was, except where a mask has every bit.
-/

namespace TorJet.Protover
open Base Net

/-! ## Ranges -/

structure Run where
  shift : Nat
  ones : Nat
  positive : 1 ≤ ones
  fits : shift + ones ≤ 64

def Run.print (r : Run) : Text := printRange r.shift r.ones

def Run.mask (r : Run) : BitVec 64 := bitmaskForRange r.shift (r.shift + r.ones - 1)

def printRuns (first : Bool) : List Run → Text
  | [] => []
  | r :: rest => (if first then [] else [',']) ++ r.print ++ printRuns false rest

def maskOfRuns (runs : List Run) : BitVec 64 := runs.foldr (fun r mask => r.mask ||| mask) 0

section Print
variable {n : Nat} {rest : Text} {c : Char}

theorem printNumber_digits (n : Nat) : printNumber n ≠ [] ∧ ∀ c ∈ printNumber n, torIsdigit c = true :=
  ⟨Nat.toDigits_ne_nil, fun _ => torIsdigit_toDigits⟩

theorem readVersion_print (small : n < 64) (stops : ∀ c ∈ rest.head?, torIsdigit c = false) :
    readVersion (printNumber n ++ rest) = some (n, rest) := by
  have read : (printNumber n ++ rest).takeWhile torIsdigit = printNumber n := takeWhile_toDigits stops
  have value : decimal (printNumber n) = n := decimal_toDigits n
  have inRange : ¬(printNumber n = [] ∨ MAX_PROTOCOL_VERSION < n) := by
    rw [not_or, MAX_PROTOCOL_VERSION]
    exact ⟨(printNumber_digits n).1, by omega⟩
  simp only [readVersion, read, value]
  rw [if_neg inRange, List.drop_left]

theorem Run.parse_print (r : Run) : parseVersionRange r.print = some (r.shift, r.shift + r.ones - 1) := by
  have positive := r.positive
  have fits := r.fits
  rw [Run.print, printRange]
  split
  · rename_i single
    have read := (@readVersion_print r.shift []) (by omega) (by simp)
    rw [List.append_nil] at read
    rw [parseVersionRange, read, single, Nat.add_sub_cancel]
  · have low := (@readVersion_print r.shift ('-' :: printNumber (r.shift + r.ones - 1))) (by omega)
      (by simp [torIsdigit])
    have high := (@readVersion_print (r.shift + r.ones - 1) []) (by omega) (by simp)
    rw [List.append_nil] at high
    rw [parseVersionRange, low]
    dsimp only
    rw [if_pos rfl, high]
    dsimp only
    rw [if_neg (by omega)]

theorem Run.print_chars (r : Run) : r.print ≠ [] ∧ ∀ c ∈ r.print, torIsdigit c = true ∨ c = '-' := by
  have low := printNumber_digits r.shift
  have high := printNumber_digits (r.shift + r.ones - 1)
  rw [Run.print, printRange]
  split
  · exact ⟨low.1, fun c mem => .inl (low.2 c mem)⟩
  · refine ⟨by simp, fun c mem => ?_⟩
    rcases List.mem_append.mp mem with first | later
    · exact .inl (low.2 c first)
    · rcases List.mem_cons.mp later with rfl | last
      · exact .inr rfl
      · exact .inl (high.2 c last)

theorem Run.print_plain (r : Run) (mem : c ∈ r.print) : c ≠ ',' ∧ c ≠ ' ' := by
  rcases r.print_chars.2 c mem with digit | rfl
  · constructor
    · rintro rfl
      exact absurd digit (by decide)
    · rintro rfl
      exact absurd digit (by decide)
  · decide

theorem printRuns_false (runs : List Run) : printRuns false runs = [] ∨ ∃ rest, printRuns false runs = ',' :: rest ∧
    rest = printRuns true runs ∧ rest ≠ [] := by
  cases runs with
  | nil => exact .inl rfl
  | cons r runs => exact .inr ⟨printRuns true (r :: runs), rfl, rfl, by simp [printRuns, r.print_chars.1]⟩

theorem parseRanges_print (runs : List Run) : ∀ (fuel : Nat) (bitmask : BitVec 64), (printRuns true runs).length ≤ fuel →
    parseRanges fuel (printRuns true runs) bitmask = some (bitmask ||| maskOfRuns runs) := by
  induction runs with
  | nil =>
      intro fuel bitmask enough
      cases fuel with
      | zero => simp [parseRanges, printRuns, maskOfRuns]
      | succ fuel => simp [parseRanges, printRuns, maskOfRuns]
  | cons r runs ih =>
      intro fuel bitmask enough
      have some := r.print_chars.1
      have text : printRuns true (r :: runs) = r.print ++ printRuns false runs := rfl
      have long := List.length_pos_iff.mpr some
      rw [text, List.length_append] at enough
      have next : printRuns true (r :: runs) ≠ [] := by
        rw [text]
        exact List.append_ne_nil_of_left_ne_nil some _
      obtain ⟨fuel, rfl⟩ := Nat.exists_eq_add_one.mpr (Nat.lt_of_lt_of_le long (by omega : r.print.length ≤ fuel))
      have comma : (printRuns false runs).takeWhile (fun c => decide (c ≠ ',')) = [] := by
        rcases printRuns_false runs with none | ⟨rest, starts, -, -⟩
        · rw [none]
          rfl
        · rw [starts, List.takeWhile_cons_of_neg (by simp)]
      have range : (printRuns true (r :: runs)).takeWhile (fun c => decide (c ≠ ',')) = r.print := by
        rw [text, List.takeWhile_append_of_pos fun c mem => decide_eq_true (r.print_plain mem).1, comma, List.append_nil]
      rw [parseRanges, if_neg next]
      dsimp only
      rw [range, r.parse_print]
      dsimp only
      rw [text, List.drop_left]
      change parseRanges fuel _ (bitmask ||| r.mask) = _
      have rest : (if 1 < (printRuns false runs).length then (printRuns false runs).tail else printRuns false runs) =
          printRuns true runs := by
        rcases printRuns_false runs with none | ⟨rest, starts, eq, nonempty⟩
        · rw [none]
          cases runs with
          | nil => rfl
          | cons r runs => simp [printRuns] at none
        · rw [starts, List.length_cons, if_pos (Nat.succ_lt_succ (List.length_pos_iff.mpr nonempty)), List.tail_cons, eq]
      have shorter : (printRuns true runs).length ≤ (printRuns false runs).length := by
        rw [← rest]
        split
        · rw [List.length_tail]
          exact Nat.sub_le _ 1
        · exact Nat.le_refl _
      rw [rest, ih fuel _ (by omega), BitVec.or_assoc]
      rfl

end Print

/-! ## Masks -/

section Masks
variable {mask : BitVec 64} {shift fuel : Nat}

theorem lowest_run (some : mask ≠ 0) (clear : mask ≠ BitVec.allOnes 64) :
    ∃ zeros ones, trailingZeros mask = .some zeros ∧ mask >>> zeros ≠ 0 ∧
      trailingZeros (~~~(mask >>> zeros)) = .some ones ∧ 1 ≤ ones ∧ ones < 64 ∧
      (∀ i < zeros, mask.getLsbD i = false) ∧ ∀ i, zeros ≤ i → i < zeros + ones → mask.getLsbD i = true := by
  obtain ⟨zeros, atZeros⟩ := Option.ne_none_iff_exists'.mp fun none => some (Bits.lowest_eq_none.mp none)
  obtain ⟨inside, set, below⟩ := Bits.lowest_spec atZeros
  have first : (mask >>> zeros).getLsbD 0 = true := by rw [BitVec.getLsbD_ushiftRight]; exact set
  have notAll : ~~~(mask >>> zeros) ≠ 0 := by
    intro none
    have full (i : Nat) (fits : i < 64) : mask.getLsbD (zeros + i) = true := by
      have bit := congrArg (fun x => x.getLsbD i) none
      simpa [fits] using bit
    rcases Nat.eq_zero_or_pos zeros with rfl | shifted
    · apply clear
      apply BitVec.eq_of_getLsbD_eq
      intro i fits
      rw [BitVec.getLsbD_allOnes, decide_eq_true fits, ← full i fits, Nat.zero_add]
    · have top := full 63 (by decide)
      rw [BitVec.getLsbD_of_ge _ _ (by omega)] at top
      cases top
  obtain ⟨ones, atOnes⟩ := Option.ne_none_iff_exists'.mp fun none => notAll (Bits.lowest_eq_none.mp none)
  obtain ⟨fits, unset, run⟩ := Bits.lowest_spec atOnes
  have some : 1 ≤ ones := by
    rw [Nat.one_le_iff_ne_zero]
    rintro rfl
    rw [BitVec.getLsbD_not, first] at unset
    simp at unset
  refine ⟨zeros, ones, atZeros, ?_, atOnes, some, fits, below, fun i le lt => ?_⟩
  · rintro none
    rw [none] at first
    simp at first
  · have bit := run (i - zeros) (by omega)
    rw [BitVec.getLsbD_not, BitVec.getLsbD_ushiftRight, Nat.add_sub_cancel' le, decide_eq_true (by omega)] at bit
    simpa using bit

theorem encodeRanges_runs (fuel : Nat) : ∀ (mask : BitVec 64) (shift : Nat) (first : Bool), 65 ≤ fuel + shift →
    shift ≤ 64 → mask ≠ BitVec.allOnes 64 → (∀ i, 64 ≤ shift + i → mask.getLsbD i = false) →
    ∃ runs : List Run, encodeRanges fuel mask shift first = some (printRuns first runs) ∧
      maskOfRuns runs = mask <<< shift := by
  induction fuel with
  | zero =>
      intro mask shift first enough inside
      omega
  | succ fuel ih =>
      intro mask shift first enough inside clear high
      by_cases none : mask = 0
      · refine ⟨[], by rw [encodeRanges, if_pos none, printRuns], ?_⟩
        rw [none]
        simp [maskOfRuns]
      · obtain ⟨zeros, ones, atZeros, left, atOnes, positive, short, below, run⟩ := lowest_run none clear
        have top : shift + (zeros + ones - 1) < 64 := by
          by_contra past
          have unset := high (zeros + ones - 1) (by omega)
          rw [run _ (by omega) (by omega)] at unset
          cases unset
        have notFull : mask >>> zeros >>> ones ≠ BitVec.allOnes 64 := by
          intro full
          have bit := congrArg (fun x => x.getLsbD 63) full
          rw [BitVec.getLsbD_ushiftRight, BitVec.getLsbD_of_ge _ _ (by omega), BitVec.getLsbD_allOnes] at bit
          cases bit
        obtain ⟨runs, rest, masks⟩ := ih (mask >>> zeros >>> ones) (shift + zeros + ones) false (by omega) (by omega)
          notFull (fun i le => by
            rw [BitVec.getLsbD_ushiftRight, BitVec.getLsbD_ushiftRight]
            exact high _ (by omega))
        refine ⟨⟨shift + zeros, ones, positive, by omega⟩ :: runs, ?_, ?_⟩
        · rw [encodeRanges, if_neg none, atZeros]
          dsimp only
          rw [if_neg left, atOnes]
          dsimp only
          rw [if_neg short.ne, rest]
          rfl
        · change bitmaskForRange (shift + zeros) (shift + zeros + ones - 1) ||| maskOfRuns runs = _
          rw [masks, bitmaskForRange]
          apply BitVec.eq_of_getLsbD_eq
          intro i fits
          rw [BitVec.getLsbD_or, Bits.getLsbD_range (by omega)]
          simp only [BitVec.getLsbD_shiftLeft, BitVec.getLsbD_ushiftRight, decide_eq_true fits, Bool.true_and]
          by_cases early : i < shift
          · simp [early, show ¬ shift + zeros ≤ i by omega, show i < shift + zeros + ones by omega]
          · by_cases before : i < shift + zeros
            · simp [show ¬ shift + zeros ≤ i by omega, show i < shift + zeros + ones by omega, below (i - shift) (by omega)]
            · by_cases within : i < shift + zeros + ones
              · simp [early, show shift + zeros ≤ i by omega, show i ≤ shift + zeros + ones - 1 by omega,
                  run (i - shift) (by omega) (by omega)]
              · simp [early, within, show ¬ i ≤ shift + zeros + ones - 1 by omega,
                  show zeros + (ones + (i - (shift + zeros + ones))) = i - shift by omega]

theorem encodeRanges_full : encodeRanges 65 (BitVec.allOnes 64) 0 true = none := by
  decide

end Masks

/-! ## Entries -/

section Entries
variable {entry : ProtoEntry} {l : List ProtoEntry} {text : Text} {c : Char}

theorem ProtoEntry.name_chars (entry : ProtoEntry) : entry.name ≠ [] ∧ ∀ c ∈ entry.name, c ≠ '=' ∧ c ≠ ' ' := by
  have valid := entry.valid
  simp only [nameOk, isValidKeyword, Bool.and_eq_true, List.all_eq_true, decide_eq_true_eq] at valid
  refine ⟨valid.1.1, fun c mem => ?_⟩
  have keyword := valid.2 c mem
  constructor
  · rintro rfl
    exact absurd keyword (by decide)
  · rintro rfl
    exact absurd keyword (by decide)

theorem printRuns_plain (runs : List Run) (first : Bool) (mem : c ∈ printRuns first runs) : c ≠ ' ' := by
  induction runs generalizing first with
  | nil => cases mem
  | cons r runs ih =>
      rcases List.mem_append.mp mem with here | later
      · rcases List.mem_append.mp here with comma | range
        · cases first with
          | true => cases comma
          | false =>
              rw [List.mem_singleton.mp comma]
              decide
        · exact (r.print_plain range).2
      · exact ih false later

structure Encoded (entry : ProtoEntry) (text : Text) : Prop where
  encodes : protoEntryEncodeInto entry = some text
  nonempty : text ≠ []
  plain : ∀ c ∈ text, c ≠ ' '
  parses : parseSingleEntry text = some entry

theorem exists_encoded (clear : entry.bitmask ≠ BitVec.allOnes 64) : ∃ text, Encoded entry text := by
  obtain ⟨runs, encodes, mask⟩ := encodeRanges_runs 65 entry.bitmask 0 true (by omega) (by omega) clear
    (fun i le => BitVec.getLsbD_of_ge _ _ (by omega))
  have chars := entry.name_chars
  refine ⟨entry.name ++ '=' :: printRuns true runs, ?_, by simp, fun c mem => ?_, ?_⟩
  · rw [protoEntryEncodeInto, encodes]
    rfl
  · rcases List.mem_append.mp mem with inName | inRanges
    · exact (chars.2 c inName).2
    · rcases List.mem_cons.mp inRanges with rfl | inRuns
      · decide
      · exact printRuns_plain runs true inRuns
  · have name : (entry.name ++ '=' :: printRuns true runs).takeWhile (fun c => decide (c ≠ '=')) = entry.name := by
      rw [List.takeWhile_append_of_pos fun c mem => decide_eq_true (chars.2 c mem).1,
        List.takeWhile_cons_of_neg (by simp), List.append_nil]
    have ranges := parseRanges_print runs ('=' :: printRuns true runs).length 0 (Nat.le_succ _)
    rw [mask, BitVec.shiftLeft_zero] at ranges
    simp only [parseSingleEntry, name, List.drop_left, List.tail_cons, ranges]
    rw [if_neg (List.cons_ne_nil _ _), dif_pos entry.valid]
    simp

theorem encodeEntries_separator (separator : Text) (entry : ProtoEntry) (l : List ProtoEntry) :
    encodeEntries separator (entry :: l) = (encodeEntries [] (entry :: l)).map (separator ++ ·) := by
  rw [encodeEntries, encodeEntries]
  split
  · simp
  · rfl

theorem exists_parsed (clear : ∀ entry ∈ l, entry.bitmask ≠ BitVec.allOnes 64) :
    ∃ text, encodeEntries [] l = some text ∧ text.head? ≠ some ' ' ∧
      ∀ fuel, text.length ≤ fuel → parseEntries fuel text = some l := by
  induction l with
  | nil =>
      refine ⟨[], rfl, by simp, fun fuel _ => ?_⟩
      cases fuel with
      | zero => rfl
      | succ fuel => rfl
  | cons entry l ih =>
      obtain ⟨chunk, here⟩ := exists_encoded (clear entry List.mem_cons_self)
      obtain ⟨rest, encodes, starts, parses⟩ := ih fun other mem => clear other (List.mem_cons_of_mem _ mem)
      obtain ⟨c, chunk', split⟩ := List.exists_cons_of_ne_nil here.nonempty
      -- a space stands before the rest, when there is one
      obtain ⟨tail, tails, nospace, skips⟩ : ∃ tail, encodeEntries [' '] l = some tail ∧
          tail.takeWhile (fun c => decide (c ≠ ' ')) = [] ∧ tail.dropWhile (fun c => decide (c = ' ')) = rest := by
        cases l with
        | nil =>
            cases encodes
            exact ⟨[], rfl, rfl, rfl⟩
        | cons next l =>
            refine ⟨' ' :: rest, by rw [encodeEntries_separator, encodes]; rfl, by simp, ?_⟩
            rw [List.dropWhile_cons_of_pos (by simp)]
            cases rest with
            | nil => rfl
            | cons d rest => exact List.dropWhile_cons_of_neg (by simpa using starts)
      refine ⟨chunk ++ tail, by rw [encodeEntries, here.encodes, tails]; rfl, ?_, fun fuel enough => ?_⟩
      · rw [split]
        have plain := here.plain c (by rw [split]; exact List.mem_cons_self)
        simpa using plain
      · have first : (chunk ++ tail).takeWhile (fun c => decide (c ≠ ' ')) = chunk := by
          rw [List.takeWhile_append_of_pos fun c mem => decide_eq_true (here.plain c mem), nospace, List.append_nil]
        have long := List.length_pos_iff.mpr here.nonempty
        have shorter : rest.length ≤ tail.length := by
          rw [← skips]
          exact (List.dropWhile_suffix _).length_le
        rw [List.length_append] at enough
        obtain ⟨fuel, rfl⟩ := Nat.exists_eq_add_one.mpr (by omega : 0 < fuel)
        rw [parseEntries, if_neg (List.append_ne_nil_of_left_ne_nil here.nonempty _)]
        dsimp only
        rw [first, here.parses, List.drop_left, skips, parses fuel (by omega)]
        rfl

theorem encodeEntries_clear {separator : Text} (encodes : encodeEntries separator l = some text) :
    ∀ entry ∈ l, entry.bitmask ≠ BitVec.allOnes 64 := by
  induction l generalizing separator text with
  | nil => exact fun entry mem => absurd mem List.not_mem_nil
  | cons first l ih =>
      rw [encodeEntries] at encodes
      split at encodes
      · rename_i chunk chunks here rest
        intro entry mem full
        rcases List.mem_cons.mp mem with rfl | later
        · rw [protoEntryEncodeInto, full, encodeRanges_full] at here
          cases here
        · exact ih rest entry later full
      · cases encodes

end Entries

def RoundTrips (l : List ProtoEntry) : Prop := ∃ s, encodeProtocolList l = some s ∧ parseProtocolList s = some l

theorem roundTrips_of_clear {l : List ProtoEntry} (clear : ∀ entry ∈ l, entry.bitmask ≠ BitVec.allOnes 64) :
    RoundTrips l := by
  obtain ⟨s, encodes, -, parses⟩ := exists_parsed clear
  exact ⟨s, encodes, parses s.length (Nat.le_refl _)⟩

theorem clear_of_roundTrips {l : List ProtoEntry} (trips : RoundTrips l) :
    ∀ entry ∈ l, entry.bitmask ≠ BitVec.allOnes 64 := by
  obtain ⟨s, encodes, -⟩ := trips
  exact encodeEntries_clear encodes

/-- A list, and what a text is parsed as, go through the encoding exactly when no mask has every bit. -/
theorem protocol_list_codec (l : List ProtoEntry) (s : Text) :
    (RoundTrips l ↔ ∀ entry ∈ l, entry.bitmask ≠ BitVec.allOnes 64) ∧
      ∀ parsed, parseProtocolList s = some parsed →
        (RoundTrips parsed ↔ ∀ entry ∈ parsed, entry.bitmask ≠ BitVec.allOnes 64) :=
  ⟨⟨clear_of_roundTrips, roundTrips_of_clear⟩, fun _ _ => ⟨clear_of_roundTrips, roundTrips_of_clear⟩⟩

/-- `Link=0-63` is parsed, and what it is parsed as cannot be encoded. -/
theorem full_mask_not_encoded : (¬ ∀ l, RoundTrips l) ∧
    ∃ parsed, parseProtocolList "Link=0-63".toList = some parsed ∧ ¬ RoundTrips parsed := by
  have parsed : parseProtocolList "Link=0-63".toList = some [⟨"Link".toList, BitVec.allOnes 64, by decide⟩] := by
    decide
  have fails : ¬ RoundTrips [⟨"Link".toList, BitVec.allOnes 64, by decide⟩] := fun trips =>
    clear_of_roundTrips trips _ List.mem_cons_self rfl
  exact ⟨fun all => fails (all _), _, parsed, fails⟩

end TorJet.Protover
