import TorJet.Base.Spans
import TorJet.Encoding.Quoted

/-!
# Key-value lines

`kvline_encode` writes a list of keys and values as one line, and `kvline_parse` reads it.
-/

namespace TorJet.Encoding
open Base Net

structure Flags where
  quoted : Bool
  omitKeys : Bool
  omitVals : Bool
  quotedQstring : Bool
  raw : Bool
  deriving DecidableEq, Repr

/-- `config_line_t`; a key that is not set is the empty one. -/
structure ConfigLine where
  key : Text
  value : Text
  deriving DecidableEq, Repr

def ConfigLine.IsCString (line : ConfigLine) : Prop :=
  Encoding.IsCString line.key ∧ Encoding.IsCString line.value

instance (line : ConfigLine) : Decidable line.IsCString :=
  inferInstanceAs (Decidable (Encoding.IsCString line.key ∧ Encoding.IsCString line.value))

def needsEscape (s : Text) (asKeylessVal : Bool) : Bool :=
  asKeylessVal && (s.isEmpty || s.contains '=') ||
    s.any fun c => 127 ≤ c.toNat || torIsspace c || !torIsprint c || c = '\'' || c = '"'

def lineHasNoKey (line : ConfigLine) : Bool := line.key.isEmpty

def lineHasNoVal (line : ConfigLine) : Bool := line.value.isEmpty

/-- What `kvline_can_encode_lines` asks of one line. -/
def canEncodeLine (flags : Flags) (line : ConfigLine) : Bool :=
  let keyless := lineHasNoKey line
  !(keyless && !flags.omitKeys) &&
    !(needsEscape line.value keyless && !(flags.quoted || flags.raw)) &&
    !(!keyless && needsEscape line.key true)

def kvlineCanEncodeLines (flags : Flags) (lines : List ConfigLine) : Bool := lines.all (canEncodeLine flags)

/-- One element of the line of `kvline_encode`. -/
def encodeLine (flags : Flags) (line : ConfigLine) : Text :=
  let keyless := lineHasNoKey line
  let k := if keyless then [] else line.key
  let eq := if keyless then [] else ['=']
  if flags.omitVals && lineHasNoVal line then k
  else if !flags.raw && needsEscape line.value keyless then k ++ eq ++ escForLog line.value
  else k ++ eq ++ line.value

/-- A `tor_assert` fails. -/
inductive Fault
  | assertion
  deriving DecidableEq, Repr

/-- `kvline_encode`; the inner `none` is the null pointer. -/
def kvlineEncode (flags : Flags) (lines : List ConfigLine) : Except Fault (Option Text) :=
  if flags.quotedQstring then .error .assertion
  else if flags.omitKeys && flags.omitVals then .error .assertion
  else if flags.quoted && flags.raw then .error .assertion
  else if kvlineCanEncodeLines flags lines then .ok (some ([' '].intercalate (lines.map (encodeLine flags))))
  else .ok none

/-! ## Parsing -/

/-- The body of a `QuotedString`, after its opening quote. -/
def readQstring : Text → Option (Text × Text)
  | [] => none
  | '"' :: rest => some ([], rest)
  | '\\' :: c :: rest => (readQstring rest).map fun read => (c :: read.1, read.2)
  | '\\' :: [] => none
  | c :: rest => (readQstring rest).map fun read => (c :: read.1, read.2)

def decodeQstring : Text → Option (Text × Text)
  | '"' :: rest => readQstring rest
  | _ => none

def isBlank (c : Char) : Bool := c = ' ' || c = '\t' || c = '\r' || c = '\x0b' || c = '\n'

/-- A value, and what is behind it; `none` is a jump to `err`. -/
def parseValue (flags : Flags) (cp : Text) : Option (Text × Text) :=
  if cp.head? = some '"' then
    if !(flags.quoted || flags.quotedQstring) then none
    else
      match if flags.quoted then unescapeString cp else decodeQstring cp with
      | none => none
      | some (val, after) => if '\x00' ∈ val then none else some (val, after)
  else some (cp.span (!isBlank ·))

/-- One pair of the loop of `kvline_parse`, at a character that is no space. -/
def parsePair (flags : Flags) (cp : Text) : Option (ConfigLine × Text) :=
  let (word, after) := cp.span fun c => !isBlank c && c ≠ '='
  if cp.head? = some '"' then (parseValue flags cp).map fun read => (⟨[], read.1⟩, read.2)
  else if after.head? = some '=' then
    match parseValue flags after.tail with
    | none => none
    | some (val, after) => if word = [] then none else some (⟨word, val⟩, after)
  else if flags.omitVals then if word = [] then none else some (⟨word, []⟩, after)
  else if !flags.omitKeys then none
  else (parseValue flags cp).map fun read => (⟨[], read.1⟩, read.2)

inductive Outcome
  | parsed (lines : List ConfigLine)
  | failed
  | bug
  | unfinished
  deriving DecidableEq, Repr

/-- The loop of `kvline_parse`, for some iterations; a position is the text from there on. -/
def kvlineLoop (flags : Flags) : Nat → Option Text → Text → List ConfigLine → Outcome
  | 0, _, _, _ => .unfinished
  | fuel + 1, cplast, cp, result =>
      if cp = [] then .parsed result
      else
        let cp := cp.dropWhile isBlank
        if cplast = some cp then .bug
        else if cp = [] then .parsed result
        else
          match parsePair flags cp with
          | none => .failed
          | some (line, next) => kvlineLoop flags fuel (some cp) next (result ++ [line])

/-- `kvline_parse`; the inner `none` is what it returns after `err`. -/
def kvlineParse (flags : Flags) (line : Text) : Except Fault (Option (List ConfigLine)) :=
  if flags.omitKeys && flags.omitVals then .error .assertion
  else if flags.raw then .error .assertion
  else
    match kvlineLoop flags (line.length + 1) none line [] with
    | .parsed result => .ok (if !flags.quotedQstring && !kvlineCanEncodeLines flags result then none else some result)
    | _ => .ok none

section Characters
variable {s tail : Text} {c : Char} {keyless : Bool}

theorem isBlank_space (blank : isBlank c = true) : torIsspace c = true := by
  simp only [isBlank, Bool.or_eq_true, decide_eq_true_eq] at blank
  rcases blank with (((rfl | rfl) | rfl) | rfl) | rfl <;> rfl

theorem plain_of_unescaped (plain : needsEscape s keyless = false) (mem : c ∈ s) : isBlank c = false ∧ c ≠ '"' := by
  rw [needsEscape, Bool.or_eq_false_iff] at plain
  have here := List.any_eq_false.mp plain.2 c mem
  simp only [Bool.or_eq_true, decide_eq_true_eq, not_or] at here
  refine ⟨?_, here.2⟩
  rw [Bool.eq_false_iff]
  exact fun blank => here.1.1.1.2 (isBlank_space blank)

theorem word_of_unescaped (plain : needsEscape s true = false) : s ≠ [] ∧ '=' ∉ s := by
  rw [needsEscape, Bool.or_eq_false_iff, Bool.true_and, Bool.or_eq_false_iff, List.isEmpty_eq_false_iff] at plain
  refine ⟨plain.1.1, fun mem => ?_⟩
  have here := plain.1.2
  rw [List.contains_iff_mem.mpr mem] at here
  cases here

theorem head_plain (plain : needsEscape s keyless = false) (stops : ∀ c ∈ tail.head?, c = ' ') :
    (s ++ tail).head? ≠ some '"' := by
  intro quote
  cases s with
  | nil =>
      have space := stops '"' quote
      cases space
  | cons c s =>
      obtain rfl := Option.some.inj quote
      exact (plain_of_unescaped plain List.mem_cons_self).2 rfl

theorem cstring_no_nul (bytes : IsCString s) : '\x00' ∉ s := by
  intro mem
  have pos := (bytes _ mem).1
  cases pos

end Characters

section Pairs
variable {flags : Flags} {line : ConfigLine} {value cp next tail : Text}

theorem parseValue_plain (plain : needsEscape value keyless = false) (stops : ∀ c ∈ tail.head?, c = ' ') :
    parseValue flags (value ++ tail) = some (value, tail) := by
  rw [parseValue, if_neg (head_plain plain stops), span_append]
  · intro c mem
    rw [(plain_of_unescaped plain mem).1]
    rfl
  · intro c head
    rw [stops c head]
    rfl

theorem head?_escForLog (value tail : Text) : (escForLog value ++ tail).head? = some '"' := rfl

theorem parseValue_quoted (quoted : flags.quoted = true) (bytes : IsCString value) (tail : Text) :
    parseValue flags (escForLog value ++ tail) = some (value, tail) := by
  have decoded := unescapeString_escForLog (fun c mem => (bytes c mem).2) tail
  rw [parseValue, if_pos (head?_escForLog value tail), quoted]
  simp only [Bool.true_or, Bool.not_true, Bool.false_eq_true, if_false, if_true, decoded]
  rw [if_neg (cstring_no_nul bytes)]

theorem parsePair_encodeLine (one : (flags.omitKeys && flags.omitVals) = false) (raw : flags.raw = false)
    (can : canEncodeLine flags line = true) (bytes : line.IsCString) (stops : ∀ c ∈ tail.head?, c = ' ') :
    parsePair flags (encodeLine flags line ++ tail) = some (line, tail) := by
  obtain ⟨key, value⟩ := line
  simp only [canEncodeLine, lineHasNoKey, raw, Bool.or_false, Bool.and_eq_true, Bool.not_eq_true',
    Bool.and_eq_false_iff, Bool.not_eq_false'] at can
  obtain ⟨⟨keys, values⟩, plainKey⟩ := can
  cases keyless : key.isEmpty with
  | true =>
      rw [keyless] at keys values
      obtain rfl := List.isEmpty_iff.mp keyless
      have omitKeys : flags.omitKeys = true := by simpa using keys
      have omitVals : flags.omitVals = false := by simpa [omitKeys] using one
      cases escaped : needsEscape value true with
      | true =>
          rw [escaped] at values
          have quoted : flags.quoted = true := by simpa using values
          have text : encodeLine flags ⟨[], value⟩ = escForLog value := by
            simp [encodeLine, lineHasNoKey, omitVals, raw, escaped]
          rw [text, parsePair]
          dsimp only
          rw [if_pos (head?_escForLog value tail), parseValue_quoted quoted bytes.2]
          rfl
      | false =>
          have text : encodeLine flags ⟨[], value⟩ = value := by
            simp [encodeLine, lineHasNoKey, omitVals, raw, escaped]
          have word := word_of_unescaped escaped
          have cut : (value ++ tail).span (fun c => !isBlank c && c ≠ '=') = (value, tail) := by
            apply span_append
            · intro c mem
              rw [(plain_of_unescaped escaped mem).1]
              simp only [Bool.not_false, Bool.true_and, decide_eq_true_eq]
              rintro rfl
              exact word.2 mem
            · intro c head
              rw [stops c head]
              rfl
          have notEq : tail.head? ≠ some '=' := fun head => absurd (stops _ head) (by decide)
          rw [text, parsePair, cut]
          dsimp only
          rw [if_neg (head_plain escaped stops), if_neg notEq, omitVals, if_neg Bool.false_ne_true, omitKeys,
            Bool.not_true, if_neg Bool.false_ne_true, parseValue_plain escaped stops]
          rfl
  | false =>
      rw [keyless] at values plainKey
      have plainKey : needsEscape key true = false := by simpa using plainKey
      have word := word_of_unescaped plainKey
      have inKey : ∀ c ∈ key, (!isBlank c && c ≠ '=') = true := by
        intro c mem
        rw [(plain_of_unescaped plainKey mem).1]
        simp only [Bool.not_false, Bool.true_and, decide_eq_true_eq]
        rintro rfl
        exact word.2 mem
      have noQuote (rest : Text) : (key ++ rest).head? ≠ some '"' := by
        cases key with
        | nil => exact absurd rfl word.1
        | cons c key =>
            intro quote
            obtain rfl := Option.some.inj quote
            exact (plain_of_unescaped plainKey List.mem_cons_self).2 rfl
      cases bare : flags.omitVals && value.isEmpty with
      | true =>
          obtain ⟨omitVals, empty⟩ := (Bool.and_eq_true _ _).mp bare
          obtain rfl := List.isEmpty_iff.mp empty
          have text : encodeLine flags ⟨key, []⟩ = key := by
            simp [encodeLine, lineHasNoKey, lineHasNoVal, omitVals, keyless]
          have cut : (key ++ tail).span (fun c => !isBlank c && c ≠ '=') = (key, tail) := by
            apply span_append inKey
            intro c head
            rw [stops c head]
            rfl
          have notEq : tail.head? ≠ some '=' := fun head => absurd (stops _ head) (by decide)
          rw [text, parsePair, cut]
          dsimp only
          rw [if_neg (noQuote tail), if_neg notEq, if_pos omitVals, if_neg word.1]
      | false =>
          -- both kinds of values stand behind the equals sign
          have pair {written : Text} (reads : parseValue flags (written ++ tail) = some (value, tail)) :
              parsePair flags (key ++ ['='] ++ written ++ tail) = some (⟨key, value⟩, tail) := by
            have cut : (key ++ '=' :: (written ++ tail)).span (fun c => !isBlank c && c ≠ '=') =
                (key, '=' :: (written ++ tail)) := by
              apply span_append inKey
              intro c head
              obtain rfl := Option.some.inj head
              rfl
            have whole : key ++ ['='] ++ written ++ tail = key ++ '=' :: (written ++ tail) := by simp
            rw [whole, parsePair, cut]
            dsimp only
            rw [if_neg (noQuote _), List.head?_cons, if_pos rfl, List.tail_cons, reads]
            dsimp only
            rw [if_neg word.1]
          cases escaped : needsEscape value false with
          | true =>
              rw [escaped] at values
              have quoted : flags.quoted = true := by simpa using values
              have text : encodeLine flags ⟨key, value⟩ = key ++ ['='] ++ escForLog value := by
                simp [encodeLine, lineHasNoKey, lineHasNoVal, keyless, bare, raw, escaped]
              rw [text]
              exact pair (parseValue_quoted quoted bytes.2 tail)
          | false =>
              have text : encodeLine flags ⟨key, value⟩ = key ++ ['='] ++ value := by
                simp [encodeLine, lineHasNoKey, lineHasNoVal, keyless, bare, escaped]
              rw [text]
              exact pair (parseValue_plain escaped stops)

theorem readQstring_length (read : readQstring cp = some (value, next)) : next.length < cp.length := by
  fun_induction readQstring cp generalizing value next with
  | case1 => cases read
  | case2 rest =>
      obtain rfl := (Prod.mk.inj (Option.some.inj read)).2
      exact Nat.lt_succ_self _
  | case3 c rest ih =>
      obtain ⟨⟨out, last⟩, decoded, same⟩ := Option.map_eq_some_iff.mp read
      dsimp only at same
      obtain rfl := (Prod.mk.inj same).2
      have := ih decoded
      rw [List.length_cons, List.length_cons]
      omega
  | case4 => cases read
  | case5 c rest _ _ _ ih =>
      obtain ⟨⟨out, last⟩, decoded, same⟩ := Option.map_eq_some_iff.mp read
      dsimp only at same
      obtain rfl := (Prod.mk.inj same).2
      have := ih decoded
      rw [List.length_cons]
      omega

theorem decodeQstring_length (read : decodeQstring cp = some (value, next)) : next.length < cp.length := by
  rw [decodeQstring.eq_def] at read
  split at read
  · have shorter := readQstring_length read
    rw [List.length_cons]
    omega
  · cases read

theorem parseValue_length (parsed : parseValue flags cp = some (value, next)) :
    next.length ≤ cp.length ∧ ((∃ c ∈ cp.head?, isBlank c = false) → next.length < cp.length) := by
  rw [parseValue] at parsed
  split at parsed
  · suffices shorter : next.length < cp.length from ⟨shorter.le, fun _ => shorter⟩
    split at parsed
    · cases parsed
    · split at parsed
      · cases parsed
      · rename_i val after decoded
        split at parsed
        · cases parsed
        · obtain ⟨rfl, rfl⟩ := Prod.mk.inj (Option.some.inj parsed)
          split at decoded
          · exact unescapeString_length decoded
          · exact decodeQstring_length decoded
  · have cut := span_split (fun c => !isBlank c) cp
    rw [Option.some.inj parsed] at cut
    obtain ⟨whole, -, stops⟩ := cut
    have sum := congrArg List.length whole
    rw [List.length_append] at sum
    dsimp only at sum
    refine ⟨by omega, ?_⟩
    rintro ⟨c, head, black⟩
    cases value with
    | nil =>
        rw [List.nil_append] at whole
        rw [whole] at head
        have blank := stops c head
        rw [black] at blank
        cases blank
    | cons d value =>
        rw [List.length_cons] at sum
        omega

theorem parsePair_length (black : ∃ c ∈ cp.head?, isBlank c = false)
    (parsed : parsePair flags cp = some (line, next)) : next.length < cp.length := by
  have keyless (read : (parseValue flags cp).map (fun read => (ConfigLine.mk [] read.1, read.2)) =
      some (line, next)) : next.length < cp.length := by
    obtain ⟨⟨val, after⟩, value, same⟩ := Option.map_eq_some_iff.mp read
    obtain rfl := (Prod.mk.inj same).2
    exact (parseValue_length value).2 black
  have cut := span_split (fun c => !isBlank c && c ≠ '=') cp
  rw [parsePair] at parsed
  generalize cp.span (fun c => !isBlank c && c ≠ '=') = word at cut parsed
  obtain ⟨word, after⟩ := word
  obtain ⟨whole, -, stops⟩ := cut
  have sum := congrArg List.length whole
  rw [List.length_append] at sum
  dsimp only at parsed sum
  split at parsed
  · exact keyless parsed
  split at parsed
  · rename_i equals
    split at parsed
    · cases parsed
    · rename_i val last value
      split at parsed
      · cases parsed
      · obtain rfl := (Prod.mk.inj (Option.some.inj parsed)).2
        have shorter := (parseValue_length value).1
        obtain ⟨tail, rfl⟩ := List.head?_eq_some_iff.mp equals
        rw [List.tail_cons] at shorter
        rw [List.length_cons] at sum
        omega
  split at parsed
  · split at parsed
    · cases parsed
    · rename_i nonempty
      obtain rfl := (Prod.mk.inj (Option.some.inj parsed)).2
      have pos := List.length_pos_iff.mpr nonempty
      omega
  split at parsed
  · cases parsed
  · exact keyless parsed

theorem parseValue_bytes (plain : flags.quotedQstring = false) (bytes : IsCString cp)
    (parsed : parseValue flags cp = some (value, next)) : IsCString value ∧ next ⊆ cp := by
  rw [parseValue, plain, Bool.or_false] at parsed
  split at parsed
  · split at parsed
    · cases parsed
    · rename_i quoted
      rw [Bool.not_eq_true', Bool.not_eq_false] at quoted
      rw [if_pos quoted] at parsed
      split at parsed
      · cases parsed
      · rename_i val after decoded
        split at parsed
        · cases parsed
        · rename_i noNul
          obtain ⟨rfl, rfl⟩ := Prod.mk.inj (Option.some.inj parsed)
          obtain ⟨small, inside⟩ := unescapeString_bytes (fun c mem => (bytes c mem).2) decoded
          refine ⟨fun c mem => ⟨?_, small c mem⟩, inside⟩
          apply Nat.pos_of_ne_zero
          intro zero
          obtain rfl : c = '\x00' := Char.toNat_inj.mp zero
          exact noNul mem
  · have cut := span_split (fun c => !isBlank c) cp
    rw [Option.some.inj parsed] at cut
    rw [cut.1]
    rw [cut.1] at bytes
    exact ⟨fun c mem => bytes c (List.mem_append_left _ mem), List.subset_append_right _ _⟩

theorem parsePair_bytes (plain : flags.quotedQstring = false) (bytes : IsCString cp)
    (parsed : parsePair flags cp = some (line, next)) : line.IsCString ∧ next ⊆ cp := by
  have none : IsCString [] := fun c mem => absurd mem List.not_mem_nil
  have keyless (read : (parseValue flags cp).map (fun read => (ConfigLine.mk [] read.1, read.2)) =
      some (line, next)) : line.IsCString ∧ next ⊆ cp := by
    obtain ⟨⟨val, after⟩, value, same⟩ := Option.map_eq_some_iff.mp read
    obtain ⟨rfl, rfl⟩ := Prod.mk.inj same
    obtain ⟨valBytes, inside⟩ := parseValue_bytes plain bytes value
    exact ⟨⟨none, valBytes⟩, inside⟩
  have cut := span_split (fun c => !isBlank c && c ≠ '=') cp
  rw [parsePair] at parsed
  generalize cp.span (fun c => !isBlank c && c ≠ '=') = word at cut parsed
  obtain ⟨word, after⟩ := word
  obtain ⟨whole, -, -⟩ := cut
  have wordBytes : IsCString word := fun c mem => bytes c (whole ▸ List.mem_append_left _ mem)
  have inside : after ⊆ cp := whole ▸ List.subset_append_right _ _
  dsimp only at parsed
  split at parsed
  · exact keyless parsed
  split at parsed
  · split at parsed
    · cases parsed
    · rename_i val last value
      split at parsed
      · cases parsed
      · obtain ⟨rfl, rfl⟩ := Prod.mk.inj (Option.some.inj parsed)
        have tail : after.tail ⊆ cp := List.Subset.trans (List.tail_subset after) inside
        obtain ⟨valBytes, behind⟩ := parseValue_bytes plain (fun c mem => bytes c (tail mem)) value
        exact ⟨⟨wordBytes, valBytes⟩, List.Subset.trans behind tail⟩
  split at parsed
  · split at parsed
    · cases parsed
    · obtain ⟨rfl, rfl⟩ := Prod.mk.inj (Option.some.inj parsed)
      exact ⟨⟨wordBytes, none⟩, inside⟩
  split at parsed
  · cases parsed
  · exact keyless parsed

end Pairs

section Loop
variable {flags : Flags} {lines result : List ConfigLine} {cplast : Option Text} {cp line tail : Text} {fuel : Nat}

theorem black_dropWhile (cp : Text) : ∀ c ∈ (cp.dropWhile isBlank).head?, isBlank c = false := by
  intro c head
  have stops := List.head?_dropWhile_not isBlank cp
  rw [Option.mem_def.mp head] at stops
  exact stops

theorem kvlineLoop_ends (enough : cp.length < fuel) (moved : ∀ last ∈ cplast, cp.length < last.length) :
    kvlineLoop flags fuel cplast cp result ≠ .bug ∧ kvlineLoop flags fuel cplast cp result ≠ .unfinished := by
  induction fuel generalizing cp cplast result with
  | zero => exact absurd enough (Nat.not_lt_zero _)
  | succ fuel ih =>
      rw [kvlineLoop]
      split
      · constructor <;> intro same <;> cases same
      have le : (cp.dropWhile isBlank).length ≤ cp.length := (List.dropWhile_suffix _).length_le
      dsimp only
      rw [if_neg]
      · split
        · constructor <;> intro same <;> cases same
        · rename_i nonempty
          split
          · constructor <;> intro same <;> cases same
          · rename_i pair next parsed
            have shorter : next.length < (cp.dropWhile isBlank).length := by
              obtain ⟨c, rest, first⟩ := List.exists_cons_of_ne_nil nonempty
              apply parsePair_length ⟨c, by rw [first]; rfl, ?_⟩ parsed
              exact black_dropWhile cp c (by rw [first]; rfl)
            apply ih (by omega)
            intro last here
            obtain rfl := Option.some.inj here
            exact shorter
      · intro same
        have longer := moved _ (Option.mem_def.mpr same)
        omega

theorem encodeLine_black {line : ConfigLine} (one : (flags.omitKeys && flags.omitVals) = false)
    (raw : flags.raw = false) (can : canEncodeLine flags line = true) : ∃ c ∈ (encodeLine flags line).head?, isBlank c = false := by
  obtain ⟨key, value⟩ := line
  simp only [canEncodeLine, lineHasNoKey, Bool.and_eq_true, Bool.not_eq_true', Bool.and_eq_false_iff,
    Bool.not_eq_false'] at can
  obtain ⟨⟨keys, values⟩, plainKey⟩ := can
  cases key with
  | nil =>
      have omitVals : flags.omitVals = false := by
        have omitKeys : flags.omitKeys = true := by simpa using keys
        simpa [omitKeys] using one
      cases escaped : needsEscape value true with
      | true =>
          refine ⟨'"', ?_, rfl⟩
          simp [encodeLine, lineHasNoKey, omitVals, raw, escaped, escForLog]
      | false =>
          have text : encodeLine flags ⟨[], value⟩ = value := by
            simp [encodeLine, lineHasNoKey, omitVals, raw, escaped]
          obtain ⟨c, rest, rfl⟩ := List.exists_cons_of_ne_nil (word_of_unescaped escaped).1
          rw [text]
          exact ⟨c, rfl, (plain_of_unescaped escaped List.mem_cons_self).1⟩
  | cons c key =>
      have plainKey : needsEscape (c :: key) true = false := by simpa using plainKey
      refine ⟨c, ?_, (plain_of_unescaped plainKey List.mem_cons_self).1⟩
      simp only [encodeLine, lineHasNoKey, List.isEmpty_cons, Bool.false_eq_true, if_false]
      split
      · rfl
      · split <;> rfl

def joined (flags : Flags) (lines : List ConfigLine) : Text := [' '].intercalate (lines.map (encodeLine flags))

def behind (flags : Flags) (lines : List ConfigLine) : Text := if lines = [] then [] else ' ' :: joined flags lines

theorem joined_cons (line : ConfigLine) (lines : List ConfigLine) :
    joined flags (line :: lines) = encodeLine flags line ++ behind flags lines := by
  cases lines with
  | nil => simp [joined, behind]
  | cons next lines => simp [joined, behind, List.intercalate]

theorem dropWhile_behind (one : (flags.omitKeys && flags.omitVals) = false) (raw : flags.raw = false)
    (can : ∀ l ∈ lines, canEncodeLine flags l = true) : (behind flags lines).dropWhile isBlank = joined flags lines := by
  cases lines with
  | nil => rfl
  | cons line lines =>
      rw [behind, if_neg (List.cons_ne_nil _ _), List.dropWhile_cons_of_pos (by rfl), joined_cons]
      obtain ⟨c, head, black⟩ := encodeLine_black one raw (can line List.mem_cons_self)
      obtain ⟨rest, first⟩ := List.head?_eq_some_iff.mp head
      rw [first, List.cons_append, List.dropWhile_cons_of_neg]
      rw [black]
      exact Bool.false_ne_true

theorem kvlineLoop_joined (cplast : Option Text) (result : List ConfigLine)
    (one : (flags.omitKeys && flags.omitVals) = false) (raw : flags.raw = false)
    (can : ∀ l ∈ lines, canEncodeLine flags l = true) (bytes : ∀ l ∈ lines, l.IsCString)
    (here : cp.dropWhile isBlank = joined flags lines) (enough : cp.length < fuel)
    (moved : ∀ last ∈ cplast, cp.length < last.length) :
    kvlineLoop flags fuel cplast cp result = .parsed (result ++ lines) := by
  induction lines generalizing cp cplast fuel result with
  | nil =>
      obtain ⟨fuel, rfl⟩ : ∃ more, fuel = more + 1 := ⟨fuel - 1, by omega⟩
      have le : (cp.dropWhile isBlank).length ≤ cp.length := (List.dropWhile_suffix _).length_le
      have ended : cp.dropWhile isBlank = [] := here
      rw [List.append_nil, kvlineLoop]
      split
      · rfl
      · dsimp only
        rw [if_neg, if_pos ended]
        intro same
        have longer := moved _ (Option.mem_def.mpr same)
        omega
  | cons line lines ih =>
      obtain ⟨fuel, rfl⟩ : ∃ more, fuel = more + 1 := ⟨fuel - 1, by omega⟩
      obtain ⟨canLine, canRest⟩ := List.forall_mem_cons.mp can
      obtain ⟨lineBytes, restBytes⟩ := List.forall_mem_cons.mp bytes
      have le : (cp.dropWhile isBlank).length ≤ cp.length := (List.dropWhile_suffix _).length_le
      obtain ⟨c, head, -⟩ := encodeLine_black one raw canLine
      obtain ⟨text, written⟩ := List.head?_eq_some_iff.mp head
      rw [joined_cons] at here
      have nonempty : cp.dropWhile isBlank ≠ [] := by
        rw [here, written]
        exact List.cons_ne_nil _ _
      have space : ∀ d ∈ (behind flags lines).head?, d = ' ' := by
        intro d first
        rw [behind] at first
        split at first
        · cases first
        · exact (Option.some.inj first).symm
      have parsed : parsePair flags (cp.dropWhile isBlank) = some (line, behind flags lines) := by
        rw [here]
        exact parsePair_encodeLine one raw canLine lineBytes space
      have shorter : (behind flags lines).length < (cp.dropWhile isBlank).length := by
        rw [here, written, List.cons_append, List.length_cons, List.length_append]
        omega
      rw [kvlineLoop, if_neg]
      · dsimp only
        rw [if_neg, if_neg nonempty, parsed]
        · dsimp only
          rw [ih _ _ canRest restBytes (dropWhile_behind one raw canRest) (by omega), List.append_assoc]
          · rfl
          · intro last this
            obtain rfl := Option.some.inj this
            exact shorter
        · intro same
          have longer := moved _ (Option.mem_def.mpr same)
          omega
      · rintro rfl
        exact nonempty rfl

theorem kvlineLoop_bytes (plain : flags.quotedQstring = false) (bytes : IsCString cp)
    (before : ∀ l ∈ result, l.IsCString) (parsed : kvlineLoop flags fuel cplast cp result = .parsed lines) :
    ∀ l ∈ lines, l.IsCString := by
  induction fuel generalizing cp cplast result with
  | zero => cases parsed
  | succ fuel ih =>
      rw [kvlineLoop] at parsed
      split at parsed
      · exact Outcome.parsed.inj parsed ▸ before
      · dsimp only at parsed
        split at parsed
        · cases parsed
        split at parsed
        · exact Outcome.parsed.inj parsed ▸ before
        split at parsed
        · cases parsed
        · rename_i pair next found
          have suffix : cp.dropWhile isBlank ⊆ cp := (List.dropWhile_suffix _).subset
          obtain ⟨pairBytes, inside⟩ := parsePair_bytes plain (fun c mem => bytes c (suffix mem)) found
          refine ih (fun c mem => bytes c (suffix (inside mem))) ?_ parsed
          intro l mem
          rcases List.mem_append.mp mem with old | new
          · exact before l old
          · rw [List.mem_singleton.mp new]
            exact pairBytes

end Loop

section Codec
variable {flags : Flags} {lines : List ConfigLine} {line out : Text}

theorem kvlineParse_encoded (raw : flags.raw = false) (plain : flags.quotedQstring = false)
    (bytes : ∀ l ∈ lines, l.IsCString) (encoded : kvlineEncode flags lines = .ok (some out)) :
    kvlineParse flags out = .ok (some lines) := by
  rw [kvlineEncode, plain, raw, if_neg Bool.false_ne_true] at encoded
  split at encoded
  · cases encoded
  rename_i one
  rw [Bool.and_false, if_neg Bool.false_ne_true] at encoded
  split at encoded
  · rename_i can
    obtain rfl := Option.some.inj (Except.ok.inj encoded)
    have one := Bool.eq_false_iff.mpr one
    have each := List.all_eq_true.mp can
    have head : ([' '].intercalate (lines.map (encodeLine flags))).dropWhile isBlank = joined flags lines := by
      cases lines with
      | nil => rfl
      | cons line lines =>
          have first := dropWhile_behind one raw each
          rw [behind, if_neg (List.cons_ne_nil _ _), List.dropWhile_cons_of_pos (by rfl)] at first
          exact first
    have read := kvlineLoop_joined none [] one raw each bytes head (Nat.lt_succ_self _)
      fun last none => by cases none
    rw [kvlineParse, one, raw, if_neg Bool.false_ne_true, if_neg Bool.false_ne_true, read]
    dsimp only
    rw [List.nil_append, can, plain]
    rfl
  · cases encoded

theorem kvlineParse_reencodes (raw : flags.raw = false) (plain : flags.quotedQstring = false) (bytes : IsCString line)
    (parsed : kvlineParse flags line = .ok (some lines)) :
    ∃ out, kvlineEncode flags lines = .ok (some out) ∧ kvlineParse flags out = .ok (some lines) := by
  have whole := parsed
  rw [kvlineParse] at parsed
  split at parsed
  · cases parsed
  rename_i one
  rw [raw, if_neg Bool.false_ne_true] at parsed
  split at parsed
  · rename_i result looped
    rw [plain, Bool.not_false, Bool.true_and] at parsed
    split at parsed
    · cases parsed
    · rename_i can
      rw [Bool.not_eq_true', Bool.not_eq_false] at can
      obtain rfl := Option.some.inj (Except.ok.inj parsed)
      have resultBytes := kvlineLoop_bytes plain bytes (fun l mem => absurd mem List.not_mem_nil) looped
      have encoded : kvlineEncode flags result = .ok (some (joined flags result)) := by
        rw [kvlineEncode, plain, raw, if_neg Bool.false_ne_true, if_neg one, Bool.and_false,
          if_neg Bool.false_ne_true, if_pos can]
        rfl
      exact ⟨_, encoded, kvlineParse_encoded raw plain resultBytes encoded⟩
  · cases parsed

end Codec

/-- Without raw values and `QuotedString`s, what is encoded is read back, what is read can be encoded, and the loop
that reads it gets on with each iteration and comes to its end. -/
theorem kvline_codec (flags : Flags) (raw : flags.raw = false) (plain : flags.quotedQstring = false) :
    (∀ lines out, (∀ l ∈ lines, l.IsCString) → kvlineEncode flags lines = .ok (some out) →
      kvlineParse flags out = .ok (some lines)) ∧
    (∀ line lines, IsCString line → kvlineParse flags line = .ok (some lines) →
      ∃ out, kvlineEncode flags lines = .ok (some out) ∧ kvlineParse flags out = .ok (some lines)) ∧
    ∀ line fuel, line.length < fuel →
      kvlineLoop flags fuel none line [] ≠ .bug ∧ kvlineLoop flags fuel none line [] ≠ .unfinished :=
  ⟨fun _ _ bytes encoded => kvlineParse_encoded raw plain bytes encoded,
    fun _ _ bytes parsed => kvlineParse_reencodes raw plain bytes parsed,
    fun _ _ enough => kvlineLoop_ends enough fun last none => by cases none⟩

theorem kvline_codec_quoted : kvlineParse ⟨true, false, false, false, false⟩ "Key=\"a b\" Other=c".toList =
    .ok (some [⟨"Key".toList, "a b".toList⟩, ⟨"Other".toList, "c".toList⟩]) :=
  (kvline_codec ⟨true, false, false, false, false⟩ rfl rfl).1 _ _ (by decide) (by decide)

end TorJet.Encoding
