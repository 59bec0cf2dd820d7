import TorJet.Base.Spans
import TorJet.Encoding.Quoted

/-!
# Configuration lines

`parse_config_line_from_str_verbose` reads the lines of a configuration file, and `config_dump` writes them.
-/

namespace TorJet.Encoding
open Base Net

def skipBlank : Bool → Text → Text
  | _, [] => []
  | true, c :: rest => skipBlank (c ≠ '\n') rest
  | false, c :: rest =>
      if torIsspace c then skipBlank false rest
      else if c = '#' then skipBlank true rest
      else c :: rest

def scanKey : Text → Text × Text
  | [] => ([], [])
  | c :: rest =>
      if torIsspace c || c = '#' || (c = '\\' && rest.head? = some '\n') then ([], c :: rest)
      else (c :: (scanKey rest).1, (scanKey rest).2)

def scanValue : Bool → Bool → Text → Text × Bool × Text
  | continuation, _, [] => ([], continuation, [])
  | continuation, true, c :: rest =>
      let next := scanValue continuation (c ≠ '\n') rest
      (c :: next.1, next.2)
  | _, false, '\\' :: '\n' :: rest =>
      let next := scanValue true false rest
      ('\\' :: '\n' :: next.1, next.2)
  | continuation, false, c :: rest =>
      if c = '\n' || (c = '#' && !continuation) then ([], continuation, c :: rest)
      else
        let next := scanValue continuation (c = '#') rest
        (c :: next.1, next.2)

def decodeValue : Bool → Text → Text
  | _, [] => []
  | true, c :: rest => decodeValue (c ≠ '\n') rest
  | false, '\\' :: '\n' :: rest => decodeValue false rest
  | false, c :: rest => if c = '#' then decodeValue true rest else c :: decodeValue false rest

def isTab (c : Char) : Bool := c = ' ' || c = '\t'

def finishLine (line : Text) : Text :=
  (if line.head? = some '#' then line.tail.dropWhile (· ≠ '\n') else line).dropWhile torIsspace

def finishQuoted (line : Text) : Text :=
  let line := line.dropWhile isTab
  if line.head? = some '\r' then if line.tail.head? = some '\n' then line.tail.tail else line.tail else line

def dropNewline (line : Text) : Text := if line.head? = some '\n' then line.tail else line

/-- The second half of `parse_config_line_from_str_verbose`, from the value of a line on. -/
def parseConfigValue (key val : Text) : Except String (Option (Text × Text) × Text) :=
  if val.head? = some '"' then
    match unescapeString val with
    | none => .error "Invalid escape sequence in quoted string"
    | some (value, line) =>
        let line := finishQuoted line
        if line.head?.all fun c => c = '#' || c = '\n' then .ok (some (key, cstr value), finishLine line)
        else .error "Excess data after quoted string"
  else
    let (raw, continuation, line) := scanValue false false val
    let raw := raw.rdropWhile torIsspace
    .ok (some (key, if continuation then decodeValue false raw else raw), finishLine (dropNewline line))

/-- `parse_config_line_from_str_verbose`: the key and value of the next line, if there is one, and where the line
after it starts. -/
def parseConfigLine (line : Text) : Except String (Option (Text × Text) × Text) :=
  let line := skipBlank false line
  if line = [] then .ok (none, [])
  else parseConfigValue (scanKey line).1 ((scanKey line).2.dropWhile isTab)

def configValueNeedsEscape (value : Text) : Bool :=
  value.head? = some '"' || value.any fun c => c = '\r' || c = '\n' || c = '#' || !torIsprint c

/-- A value as `config_get_assigned_option` has it for a configuration file. -/
def assignedValue (value : Text) : Text := if configValueNeedsEscape value then escForLog value else value

/-- A line of `config_dump` that is not commented out. -/
def dumpLine (key value : Text) : Text :=
  key ++ (if assignedValue value = [] then [] else [' ']) ++ assignedValue value ++ ['\n']

structure OptionName where
  text : Text
  nonempty : text ≠ []
  letters : ∀ c ∈ text, (torIsalpha c || torIsdigit c || c = '_') = true

def ReadBack (line : Text) (name : OptionName) (value rest : Text) : Prop :=
  ∃ left, parseConfigLine (line ++ rest) = .ok (some (name.text, value), left) ∧
    skipBlank false left = skipBlank false rest

def KeptInFile (value rest : Text) : Prop :=
  configValueNeedsEscape value = true ∨
    (value.head? ≠ some ' ' ∧ value.getLast? ≠ some ' ' ∧
      (value.getLast? = some '\\' → ∀ c ∈ rest.takeWhile (· ≠ '\n'), torIsspace c = true))

/-! ## Blanks -/

section Blank
variable {c : Char} {t rest key : Text} {comment : Bool}

theorem skipBlank_cons (c : Char) (rest : Text) :
    skipBlank false (c :: rest) =
      if torIsspace c then skipBlank false rest else if c = '#' then skipBlank true rest else c :: rest := by
  rw [skipBlank.eq_def]

theorem skipBlank_space (space : torIsspace c = true) : skipBlank false (c :: rest) = skipBlank false rest := by
  rw [skipBlank_cons, if_pos space]

theorem skipBlank_spaces (t : Text) : skipBlank false (t.dropWhile torIsspace) = skipBlank false t := by
  induction t with
  | nil => rfl
  | cons c t ih =>
      cases space : torIsspace c with
      | true => rw [List.dropWhile_cons_of_pos space, skipBlank_space space, ih]
      | false => rw [List.dropWhile_cons_of_neg (by rw [space]; exact Bool.false_ne_true)]

theorem skipBlank_comment (t : Text) : skipBlank false (t.dropWhile (· ≠ '\n')) = skipBlank true t := by
  induction t with
  | nil => rfl
  | cons c t ih =>
      rw [skipBlank]
      by_cases newline : c = '\n'
      · subst newline
        rfl
      · rw [List.dropWhile_cons_of_pos (by simpa using newline), ih, decide_eq_true newline]

theorem skipBlank_finishLine (t : Text) : skipBlank false (finishLine t) = skipBlank false t := by
  rw [finishLine, skipBlank_spaces]
  split
  · rename_i hash
    obtain ⟨rest, rfl⟩ := List.head?_eq_some_iff.mp hash
    rw [List.tail_cons, skipBlank_comment, skipBlank_cons, if_neg (by decide), if_pos rfl]
  · rfl

theorem skipBlank_append (spaces : ∀ c ∈ t, torIsspace c = true) : skipBlank false (t ++ rest) = skipBlank false rest := by
  induction t with
  | nil => rfl
  | cons c t ih => rw [List.cons_append, skipBlank_space (spaces c (.head _)), ih fun d mem => spaces d (.tail _ mem)]

theorem skipBlank_dropNewline (t : Text) : skipBlank false (dropNewline t) = skipBlank false t := by
  rw [dropNewline]
  split
  · rename_i newline
    obtain ⟨rest, rfl⟩ := List.head?_eq_some_iff.mp newline
    rw [List.tail_cons, skipBlank_space (by rfl)]
  · rfl

theorem skipBlank_length (comment : Bool) (t : Text) : (skipBlank comment t).length ≤ t.length := by
  fun_induction skipBlank comment t with
  | case1 => exact Nat.le_refl _
  | case2 c rest ih => exact ih.trans (Nat.le_succ _)
  | case3 c rest _ ih => exact ih.trans (Nat.le_succ _)
  | case4 rest _ ih => exact ih.trans (Nat.le_succ _)
  | case5 => exact Nat.le_refl _

end Blank

/-! ## Values -/

section Values
variable {c : Char} {u v t rest raw : Text} {continuation comment : Bool}

def Inline (c : Char) : Prop := c ≠ '\n' ∧ c ≠ '#'

theorem scanValue_inline (inline : Inline c) (other : ¬ (c = '\\' ∧ rest.head? = some '\n')) :
    scanValue continuation false (c :: rest) =
      (c :: (scanValue continuation false rest).1, (scanValue continuation false rest).2) := by
  have hash : decide (c = '#') = false := decide_eq_false inline.2
  rw [scanValue.eq_4]
  · rw [if_neg (by simp [inline.1, inline.2]), hash]
  · rintro tail rfl rfl
    exact other ⟨rfl, rfl⟩

theorem decodeValue_inline (inline : Inline c) (other : ¬ (c = '\\' ∧ rest.head? = some '\n')) :
    decodeValue false (c :: rest) = c :: decodeValue false rest := by
  rw [decodeValue.eq_4]
  · rw [if_neg inline.2]
  · rintro tail rfl rfl
    exact other ⟨rfl, rfl⟩

def Joins (u rest : Text) : Prop := u.getLast? = some '\\' ∧ rest.head? = some '\n'

theorem joins_cons (inline : ∀ d ∈ c :: u, Inline d) (apart : ¬ Joins (c :: u) rest) :
    ¬ (c = '\\' ∧ (u ++ rest).head? = some '\n') ∧ ¬ Joins u rest := by
  cases u with
  | nil =>
      refine ⟨?_, fun joins => by cases joins.1⟩
      rintro ⟨rfl, newline⟩
      exact apart ⟨rfl, newline⟩
  | cons d u =>
      constructor
      · rintro ⟨-, newline⟩
        exact (inline d (.tail _ (.head _))).1 (Option.some.inj newline)
      · rintro ⟨last, newline⟩
        exact apart ⟨by rw [List.getLast?_cons_cons]; exact last, newline⟩

theorem scanValue_append (inline : ∀ c ∈ u, Inline c) (apart : ¬ Joins u rest) :
    scanValue continuation false (u ++ rest) =
      (u ++ (scanValue continuation false rest).1, (scanValue continuation false rest).2) := by
  induction u with
  | nil => rfl
  | cons c u ih =>
      obtain ⟨here, later⟩ := joins_cons inline apart
      rw [List.cons_append, scanValue_inline (inline c (.head _)) here, ih (fun d mem => inline d (.tail _ mem)) later]
      rfl

theorem decodeValue_append (inline : ∀ c ∈ u, Inline c) (apart : ¬ Joins u rest) :
    decodeValue false (u ++ rest) = u ++ decodeValue false rest := by
  induction u with
  | nil => rfl
  | cons c u ih =>
      obtain ⟨here, later⟩ := joins_cons inline apart
      rw [List.cons_append, decodeValue_inline (inline c (.head _)) here, ih (fun d mem => inline d (.tail _ mem)) later]
      rfl

theorem scanValue_newline (continuation : Bool) (rest : Text) :
    scanValue continuation false ('\n' :: rest) = ([], continuation, '\n' :: rest) := by
  rw [scanValue.eq_4 _ _ _ (fun tail same => by cases same)]
  rfl

theorem scanValue_continued (inline : ∀ c ∈ u, Inline c) (rest : Text) :
    scanValue continuation false (u ++ '\\' :: '\n' :: rest) =
      (u ++ '\\' :: '\n' :: (scanValue true false rest).1, (scanValue true false rest).2) := by
  rw [scanValue_append inline]
  · rw [scanValue]
  · rintro ⟨-, newline⟩
    cases newline

theorem decodeValue_continued (inline : ∀ c ∈ u, Inline c) (rest : Text) :
    decodeValue false (u ++ '\\' :: '\n' :: rest) = u ++ decodeValue false rest := by
  rw [decodeValue_append inline]
  · rw [decodeValue]
  · rintro ⟨-, newline⟩
    cases newline

theorem scanValue_spaces (spaces : ∀ c ∈ u, torIsspace c = true ∧ c ≠ '\n') (stops : ∀ c ∈ rest.head?, c = '\n') :
    scanValue continuation false (u ++ rest) = (u, continuation, rest) := by
  have inline : ∀ c ∈ u, Inline c := by
    intro c mem
    refine ⟨(spaces c mem).2, ?_⟩
    rintro rfl
    cases (spaces _ mem).1
  have stop : scanValue continuation false rest = ([], continuation, rest) := by
    cases rest with
    | nil => rfl
    | cons c rest =>
        obtain rfl := stops c rfl
        exact scanValue_newline continuation rest
  rw [scanValue_append inline, stop, List.append_nil]
  rintro ⟨last, -⟩
  cases (spaces _ (List.mem_of_getLast? last)).1

theorem scanValue_true (continued : continuation = true) (t : Text) :
    (scanValue continuation comment t).2.1 = true := by
  fun_induction scanValue continuation comment t with
  | case1 => exact continued
  | case2 continuation c rest next ih => exact ih continued
  | case3 _ rest next ih => exact ih rfl
  | case4 => exact continued
  | case5 continuation c rest _ _ next ih => exact ih continued

theorem scanValue_length (continuation comment : Bool) (t : Text) :
    (scanValue continuation comment t).2.2.length ≤ t.length := by
  fun_induction scanValue continuation comment t with
  | case1 => exact Nat.le_refl _
  | case2 continuation c rest next ih => exact ih.trans (Nat.le_succ _)
  | case3 _ rest next ih => exact ih.trans (Nat.le_add_right _ 2)
  | case4 => exact Nat.le_refl _
  | case5 continuation c rest _ _ next ih => exact ih.trans (Nat.le_succ _)

def outside : Bool → Text → Text
  | _, [] => []
  | true, c :: rest => outside (c ≠ '\n') rest
  | false, c :: rest => if c = '#' then outside true rest else c :: outside false rest

theorem scanValue_keyword (comment : Bool) (continued : continuation = true) (t : Text) :
    (scanValue continuation comment t).2.2.length < (skipBlank comment t).length ∨
      ∀ c ∈ outside comment (scanValue continuation comment t).1, torIsspace c = true := by
  fun_induction scanValue continuation comment t with
  | case1 => exact .inr fun c mem => absurd mem (by simp [outside])
  | case2 continuation c rest next ih =>
      rw [skipBlank, outside]
      exact ih continued
  | case3 _ rest next ih =>
      left
      have le := scanValue_length true false rest
      rw [skipBlank_cons, if_neg (by decide), if_neg (by decide), List.length_cons, List.length_cons]
      exact Nat.lt_succ_of_le (le.trans (Nat.le_succ _))
  | case4 => exact .inr fun c mem => absurd mem (by simp [outside])
  | case5 continuation c rest _ _ next ih =>
      rw [skipBlank_cons, outside]
      by_cases hash : c = '#'
      · subst hash
        rw [if_neg (by decide), if_pos rfl, if_pos rfl]
        exact ih continued
      · rw [if_neg hash, if_neg hash]
        have plain : next = scanValue continuation false rest := by simp only [next, decide_eq_false hash]
        rw [decide_eq_false hash] at ih
        rw [plain]
        cases space : torIsspace c with
        | true =>
            rw [if_pos rfl]
            exact (ih continued).imp id fun spaces => List.forall_mem_cons.mpr ⟨space, spaces⟩
        | false =>
            left
            rw [if_neg Bool.false_ne_true, List.length_cons]
            exact Nat.lt_succ_of_le (scanValue_length _ _ _)

theorem firstLine_of_spaces (spaces : ∀ c ∈ (scanValue true false t).1, torIsspace c = true) :
    t.takeWhile (· ≠ '\n') = (scanValue true false t).1 := by
  induction t with
  | nil => rfl
  | cons c t ih =>
      by_cases newline : c = '\n'
      · subst newline
        rw [scanValue_newline]
        rfl
      by_cases goesOn : c = '\\' ∧ t.head? = some '\n'
      · obtain ⟨rfl, head⟩ := goesOn
        obtain ⟨rest, rfl⟩ := List.head?_eq_some_iff.mp head
        rw [scanValue] at spaces
        cases spaces '\\' List.mem_cons_self
      by_cases hash : c = '#'
      · subst hash
        rw [scanValue.eq_4 _ _ _ (fun tail same => by cases same), if_neg (by decide)] at spaces
        cases spaces '#' List.mem_cons_self
      · rw [scanValue_inline ⟨newline, hash⟩ goesOn] at spaces ⊢
        rw [List.takeWhile_cons_of_pos (by simpa using newline), ih (List.forall_mem_cons.mp spaces).2]

theorem decodeValue_subset (comment : Bool) (t : Text) : decodeValue comment t ⊆ outside comment t := by
  fun_induction decodeValue comment t with
  | case1 => exact List.nil_subset _
  | case2 c rest ih =>
      rw [outside]
      exact ih
  | case3 rest ih =>
      rw [outside, if_neg (by decide), outside, if_neg (by decide)]
      exact fun c mem => .tail _ (.tail _ (ih mem))
  | case4 rest _ ih =>
      rw [outside, if_pos rfl]
      exact ih
  | case5 c rest _ hash ih =>
      rw [outside, if_neg hash]
      exact List.cons_subset_cons c ih

theorem outside_start (before : u <+: t) (comment : Bool) : outside comment u ⊆ outside comment t := by
  obtain ⟨more, rfl⟩ := before
  induction u generalizing comment with
  | nil => simp [outside]
  | cons c u ih =>
      cases comment with
      | true =>
          rw [List.cons_append, outside, outside]
          exact ih _
      | false =>
          rw [List.cons_append, outside, outside]
          split
          · exact ih _
          · exact List.cons_subset_cons c (ih _)

theorem outside_plain (plain : '#' ∉ t) : outside false t = t := by
  induction t with
  | nil => rfl
  | cons c t ih =>
      rw [List.mem_cons, not_or] at plain
      rw [outside, if_neg (Ne.symm plain.1), ih plain.2]

theorem rdropWhile_append_black {p : Char → Bool} (black : ∃ c ∈ t, p c = false) :
    (u ++ t).rdropWhile p = u ++ t.rdropWhile p := by
  have kept : (t.reverse.dropWhile p).isEmpty = false := by
    obtain ⟨c, mem, plain⟩ := black
    rw [List.isEmpty_eq_false_iff]
    intro empty
    have all := List.dropWhile_eq_nil_iff.mp empty c (List.mem_reverse.mpr mem)
    rw [plain] at all
    cases all
  rw [List.rdropWhile, List.rdropWhile, List.reverse_append, List.dropWhile_append, kept, if_neg Bool.false_ne_true,
    List.reverse_append, List.reverse_reverse]

theorem continued_value (inline : ∀ c ∈ u, Inline c) (rest : Text) :
    (∀ c ∈ rest.takeWhile (· ≠ '\n'), torIsspace c = true) ∨
      (scanValue true false rest).2.2.length < (skipBlank false rest).length ∨
      ∃ x, (∀ c ∈ x, torIsspace c = true) ∧
        decodeValue false ((u ++ '\\' :: '\n' :: (scanValue true false rest).1).rdropWhile torIsspace) = u ++ x := by
  rcases scanValue_keyword false rfl rest with shorter | spaces
  · exact .inr (.inl shorter)
  by_cases hash : '#' ∈ (scanValue true false rest).1
  · refine .inr (.inr ⟨decodeValue false ((scanValue true false rest).1.rdropWhile torIsspace), ?_, ?_⟩)
    · intro c mem
      exact spaces c (outside_start (List.rdropWhile_prefix _ _) false (decodeValue_subset false _ mem))
    · have cut : (u ++ '\\' :: '\n' :: (scanValue true false rest).1).rdropWhile torIsspace =
          u ++ '\\' :: '\n' :: (scanValue true false rest).1.rdropWhile torIsspace := by
        have split := rdropWhile_append_black (u := u ++ ['\\', '\n']) (p := torIsspace) ⟨'#', hash, rfl⟩
        simpa using split
      rw [cut, decodeValue_continued inline]
  · rw [outside_plain hash] at spaces
    left
    rw [firstLine_of_spaces spaces]
    exact spaces

end Values

/-! ## Lines -/

section Lines
variable {c : Char} {key value t rest : Text} {name : OptionName}

theorem letter_plain (letter : (torIsalpha c || torIsdigit c || c = '_') = true) :
    torIsspace c = false ∧ c ≠ '#' ∧ c ≠ '\\' := by
  refine ⟨?_, ?_, ?_⟩
  · by_contra space
    simp only [torIsspace, Bool.not_eq_false, Bool.or_eq_true, Bool.and_eq_true, decide_eq_true_eq] at space
    simp only [torIsalpha, torIsdigit, Bool.or_eq_true, Bool.and_eq_true, decide_eq_true_eq, Char.le_def,
      UInt32.le_iff_toNat_le] at letter
    have codes : 'a'.val.toNat = 97 ∧ 'A'.val.toNat = 65 ∧ '0'.val.toNat = 48 ∧ '_'.val.toNat = 95 ∧
        ' '.val.toNat = 32 := by decide
    simp only [Char.toNat] at space
    have blank : c.val.toNat ≤ 32 := by
      rcases space with below | rfl <;> omega
    rcases letter with (upper | digit) | rfl <;> omega
  · rintro rfl
    cases letter
  · rintro rfl
    cases letter

theorem scanKey_name (letters : ∀ c ∈ key, (torIsalpha c || torIsdigit c || c = '_') = true)
    (stops : ∀ c ∈ t.head?, torIsspace c = true) : scanKey (key ++ t) = (key, t) := by
  induction key with
  | nil =>
      cases t with
      | nil => rfl
      | cons c t =>
          rw [List.nil_append, scanKey, stops c rfl]
          rfl
  | cons c key ih =>
      obtain ⟨first, others⟩ := List.forall_mem_cons.mp letters
      obtain ⟨space, hash, backslash⟩ := letter_plain first
      rw [List.cons_append, scanKey, if_neg (by simp [space, hash, backslash]), ih others]

theorem parseConfigLine_named (name : OptionName) (stops : ∀ c ∈ t.head?, torIsspace c = true) :
    parseConfigLine (name.text ++ t) = parseConfigValue name.text (t.dropWhile isTab) := by
  obtain ⟨c, key, split⟩ := List.exists_cons_of_ne_nil name.nonempty
  obtain ⟨space, hash, -⟩ := letter_plain (name.letters c (by rw [split]; exact .head _))
  have start : skipBlank false (name.text ++ t) = name.text ++ t := by
    rw [split, List.cons_append, skipBlank_cons, space, if_neg Bool.false_ne_true, if_neg hash]
  have some : name.text ++ t ≠ [] := by
    rw [split]
    exact List.cons_ne_nil _ _
  rw [parseConfigLine, start, if_neg some, scanKey_name name.letters stops]

theorem isTab_space (tab : isTab c = true) : torIsspace c = true := by
  simp only [isTab, Bool.or_eq_true, decide_eq_true_eq] at tab
  rcases tab with rfl | rfl <;> rfl

theorem parse_dumped (name : OptionName) (value rest : Text) :
    parseConfigLine (dumpLine name.text value ++ rest) =
        parseConfigValue name.text ((assignedValue value).dropWhile isTab ++ '\n' :: rest) ∧
      parseConfigLine (name.text ++ ' ' :: assignedValue value ++ ['\n'] ++ rest) =
        parseConfigValue name.text ((assignedValue value).dropWhile isTab ++ '\n' :: rest) := by
  have cut : (assignedValue value ++ '\n' :: rest).dropWhile isTab =
      (assignedValue value).dropWhile isTab ++ '\n' :: rest := by
    rw [List.dropWhile_append]
    split
    · rename_i empty
      rw [List.isEmpty_iff.mp empty]
      rfl
    · rfl
  have spaced : parseConfigLine (name.text ++ ' ' :: assignedValue value ++ ['\n'] ++ rest) =
      parseConfigValue name.text ((assignedValue value).dropWhile isTab ++ '\n' :: rest) := by
    have split : name.text ++ ' ' :: assignedValue value ++ ['\n'] ++ rest =
        name.text ++ ' ' :: (assignedValue value ++ '\n' :: rest) := by simp
    rw [split, parseConfigLine_named, List.dropWhile_cons_of_pos (by rfl), cut]
    intro c head
    rw [← Option.some.inj head]
    rfl
  refine ⟨?_, spaced⟩
  by_cases empty : assignedValue value = []
  · have split : dumpLine name.text value ++ rest = name.text ++ '\n' :: rest := by simp [dumpLine, empty]
    rw [split, parseConfigLine_named, empty]
    · rfl
    · intro c head
      rw [← Option.some.inj head]
      rfl
  · rw [← spaced, dumpLine, if_neg empty]
    simp

end Lines

section RoundTrip
variable {c : Char} {key value u v rest : Text} {name : OptionName}

theorem cstr_of_bytes (bytes : IsCString value) : cstr value = value := by
  rw [cstr, List.takeWhile_eq_self_iff]
  intro c mem
  rw [decide_eq_true_eq]
  rintro rfl
  cases (bytes _ mem).1

def ReadAs (val key value rest : Text) : Prop :=
  ∃ left, parseConfigValue key val = .ok (some (key, value), left) ∧ skipBlank false left = skipBlank false rest

theorem readAs_quoted (bytes : IsCString value) (key rest : Text) :
    ReadAs (escForLog value ++ '\n' :: rest) key value rest := by
  have decoded := unescapeString_escForLog (fun c mem => (bytes c mem).2) ('\n' :: rest)
  have finished : finishQuoted ('\n' :: rest) = '\n' :: rest := rfl
  refine ⟨finishLine ('\n' :: rest), ?_, ?_⟩
  · have quote : (escForLog value ++ '\n' :: rest).head? = some '"' := rfl
    rw [parseConfigValue, if_pos quote, decoded]
    dsimp only
    rw [finished, if_pos (by rfl), cstr_of_bytes bytes]
  · rw [skipBlank_finishLine, skipBlank_space (by rfl)]

theorem not_readAs_quote (long : ('"' :: u).length ≤ v.length) (key rest : Text) :
    ¬ ReadAs ('"' :: u ++ '\n' :: rest) key v rest := by
  rintro ⟨left, parsed, -⟩
  rw [parseConfigValue, if_pos (by rfl)] at parsed
  split at parsed
  · cases parsed
  rename_i value line decoded
  dsimp only at parsed
  split at parsed
  · obtain ⟨same, -⟩ := Prod.mk.inj (Except.ok.inj parsed)
    have same := (Prod.mk.inj (Option.some.inj same)).2
    rw [List.cons_append, unescapeString] at decoded
    split at decoded
    · rename_i closes
      have short := copyQuoted_oneLine closes decoded
      have le : (cstr value).length ≤ value.length := (List.takeWhile_prefix _).length_le
      rw [same] at le
      rw [List.length_cons] at long
      omega
    · cases decoded
  · cases parsed

theorem parseConfigValue_bare (bare : (u ++ '\n' :: rest).head? ≠ some '"') (inline : ∀ c ∈ u, Inline c)
    (ends : u.getLast? ≠ some '\\') (key : Text) :
    parseConfigValue key (u ++ '\n' :: rest) = .ok (some (key, u.rdropWhile torIsspace), finishLine rest) := by
  have scanned : scanValue false false (u ++ '\n' :: rest) = (u, false, '\n' :: rest) := by
    rw [scanValue_append inline (fun joins => ends joins.1), scanValue_newline, List.append_nil]
  rw [parseConfigValue, if_neg bare, scanned]
  rfl

theorem parseConfigValue_blank (bare : (u ++ '\\' :: '\n' :: rest).head? ≠ some '"') (inline : ∀ c ∈ u, Inline c)
    (blank : ∀ c ∈ rest.takeWhile (· ≠ '\n'), torIsspace c = true) (key : Text) :
    ∃ left, parseConfigValue key (u ++ '\\' :: '\n' :: rest) = .ok (some (key, u ++ ['\\']), left) ∧
      skipBlank false left = skipBlank false rest := by
  have cut := span_split (· ≠ '\n') rest
  rw [List.span_eq_takeWhile_dropWhile] at cut
  obtain ⟨whole, before, stops⟩ := cut
  dsimp only at whole before stops
  generalize rest.takeWhile (· ≠ '\n') = first at whole before blank
  generalize rest.dropWhile (· ≠ '\n') = after at whole stops
  subst whole
  have newline : ∀ c ∈ after.head?, c = '\n' := fun c head => by simpa using stops c head
  have scanned : scanValue true false (first ++ after) = (first, true, after) :=
    scanValue_spaces (fun c mem => ⟨blank c mem, by simpa using before c mem⟩) newline
  have trimmed : (u ++ '\\' :: '\n' :: first).rdropWhile torIsspace = u ++ ['\\'] := by
    have spaces : ∀ c ∈ '\n' :: first, torIsspace c = true := List.forall_mem_cons.mpr ⟨rfl, blank⟩
    have split : u ++ '\\' :: '\n' :: first = (u ++ ['\\']) ++ '\n' :: first := by simp
    have gone : (('\n' :: first).reverse.dropWhile torIsspace).isEmpty = true := by
      rw [List.isEmpty_iff, List.dropWhile_eq_nil_iff]
      exact fun c mem => spaces c (List.mem_reverse.mp mem)
    rw [split, List.rdropWhile, List.reverse_append, List.dropWhile_append, gone, if_pos rfl, ← List.rdropWhile,
      List.rdropWhile_concat_neg]
    exact Bool.false_ne_true
  have decoded : decodeValue false (u ++ ['\\']) = u ++ ['\\'] := by
    rw [decodeValue_append inline (fun joins => by cases joins.2)]
    rfl
  refine ⟨finishLine (dropNewline after), ?_, ?_⟩
  · rw [parseConfigValue, if_neg bare, scanValue_continued inline, scanned]
    dsimp only
    rw [if_pos rfl, trimmed, decoded]
  · rw [skipBlank_finishLine, skipBlank_dropNewline, skipBlank_append blank]

theorem not_readAs_continued (bare : (u ++ '\\' :: '\n' :: rest).head? ≠ some '"') (inline : ∀ c ∈ u, Inline c)
    (long : u.length < v.length) (ends : v.getLast? = some '\\')
    (more : ¬ ∀ c ∈ rest.takeWhile (· ≠ '\n'), torIsspace c = true) (key : Text) :
    ¬ ReadAs (u ++ '\\' :: '\n' :: rest) key v rest := by
  rintro ⟨left, parsed, resumed⟩
  have continuation : (scanValue true false rest).2.1 = true := scanValue_true rfl rest
  rw [parseConfigValue, if_neg bare, scanValue_continued inline] at parsed
  dsimp only at parsed
  rw [continuation, if_pos rfl] at parsed
  obtain ⟨same, rfl⟩ := Prod.mk.inj (Except.ok.inj parsed)
  have same := (Prod.mk.inj (Option.some.inj same)).2
  rcases continued_value inline rest with blank | shorter | ⟨x, spaces, decoded⟩
  · exact more blank
  · rw [← resumed, skipBlank_finishLine, skipBlank_dropNewline] at shorter
    exact Nat.lt_irrefl _ (shorter.trans_le (skipBlank_length false _))
  · rw [decoded] at same
    subst same
    cases x with
    | nil =>
        rw [List.append_nil] at long
        exact absurd long (Nat.lt_irrefl _)
    | cons c x =>
        rw [List.getLast?_append_of_ne_nil _ (List.cons_ne_nil _ _)] at ends
        cases spaces _ (List.mem_of_getLast? ends)

theorem unescaped_inline (unescaped : configValueNeedsEscape value = false) (mem : c ∈ value) :
    Inline c ∧ (torIsspace c = true → c = ' ') := by
  rw [configValueNeedsEscape, Bool.or_eq_false_iff] at unescaped
  have here := List.any_eq_false.mp unescaped.2 c mem
  simp only [Bool.or_eq_true, decide_eq_true_eq, not_or, Bool.not_eq_true', Bool.not_eq_false] at here
  refine ⟨⟨here.1.1.2, here.1.2⟩, fun space => ?_⟩
  simp only [torIsspace, torIsprint, Bool.or_eq_true, Bool.and_eq_true, decide_eq_true_eq] at space here
  rcases space with low | same
  · omega
  · exact same

theorem readAs_iff (bytes : IsCString value) (key rest : Text) :
    ReadAs ((assignedValue value).dropWhile isTab ++ '\n' :: rest) key value rest ↔ KeptInFile value rest := by
  cases escaped : configValueNeedsEscape value with
  | true =>
      have quoted : (assignedValue value).dropWhile isTab = escForLog value := by
        rw [assignedValue, if_pos escaped, escForLog, List.dropWhile_cons_of_neg (by decide)]
      rw [quoted]
      exact iff_of_true (readAs_quoted bytes key rest) (.inl escaped)
  | false =>
      have plain : assignedValue value = value := by
        rw [assignedValue, escaped, if_neg Bool.false_ne_true]
      have kept : KeptInFile value rest ↔ value.head? ≠ some ' ' ∧ value.getLast? ≠ some ' ' ∧
          (value.getLast? = some '\\' → ∀ c ∈ rest.takeWhile (· ≠ '\n'), torIsspace c = true) := by
        rw [KeptInFile, escaped]
        exact or_iff_right Bool.false_ne_true
      have suffix : value.dropWhile isTab <:+ value := List.dropWhile_suffix _
      have inline : ∀ c ∈ value.dropWhile isTab, Inline c := fun c mem => (unescaped_inline escaped (suffix.subset mem)).1
      -- there is no space to drop exactly where the value starts with none
      have head : value.dropWhile isTab = value ↔ value.head? ≠ some ' ' := by
        cases value with
        | nil => simp
        | cons c rest =>
            have tab : isTab c = true ↔ c = ' ' :=
              ⟨fun tab => (unescaped_inline escaped List.mem_cons_self).2 (isTab_space tab), fun same => by rw [same]; rfl⟩
            constructor
            · intro same space
              obtain rfl := Option.some.inj space
              rw [List.dropWhile_cons_of_pos (by rfl)] at same
              have le : (rest.dropWhile isTab).length ≤ rest.length := (List.dropWhile_suffix _).length_le
              rw [same, List.length_cons] at le
              omega
            · intro black
              rw [List.dropWhile_cons_of_neg]
              exact fun here => black (by rw [tab.mp here]; rfl)
      rw [plain, kept]
      by_cases quote : (value.dropWhile isTab).head? = some '"'
      · obtain ⟨w, split⟩ := List.head?_eq_some_iff.mp quote
        have le := suffix.length_le
        rw [split] at le ⊢
        refine iff_of_false (not_readAs_quote le key rest) fun kept => ?_
        rw [← head.mpr kept.1, split, configValueNeedsEscape] at escaped
        simp at escaped
      have bare : (value.dropWhile isTab ++ '\n' :: rest).head? ≠ some '"' := by
        rw [List.head?_append]
        cases found : (value.dropWhile isTab).head? with
        | none => exact fun newline => by cases newline
        | some c =>
            rw [found] at quote
            exact quote
      by_cases ends : (value.dropWhile isTab).getLast? = some '\\'
      · have last : value.getLast? = some '\\' := by
          obtain ⟨before, whole⟩ := suffix
          rw [← whole, List.getLast?_append, ends]
          rfl
        obtain ⟨w, split⟩ := List.getLast?_eq_some_iff.mp ends
        have le := suffix.length_le
        rw [split] at bare inline head le ⊢
        rw [List.append_assoc] at bare ⊢
        have inlineW : ∀ c ∈ w, Inline c := fun c mem => inline c (List.mem_append_left _ mem)
        by_cases blank : ∀ c ∈ rest.takeWhile (· ≠ '\n'), torIsspace c = true
        · obtain ⟨left, parsed, resumed⟩ := parseConfigValue_blank bare inlineW blank key
          constructor
          · rintro ⟨left, again, -⟩
            rw [List.singleton_append, parsed] at again
            obtain ⟨same, -⟩ := Prod.mk.inj (Except.ok.inj again)
            refine ⟨head.mp (Prod.mk.inj (Option.some.inj same)).2, ?_, fun _ => blank⟩
            rw [last]
            exact fun space => by cases space
          · intro kept
            rw [head.mpr kept.1] at parsed
            exact ⟨left, parsed, resumed⟩
        · rw [List.length_append, List.length_singleton] at le
          exact iff_of_false (not_readAs_continued bare inlineW le last blank key) fun kept => blank (kept.2.2 last)
      · have parsed := parseConfigValue_bare bare inline ends key
        constructor
        · rintro ⟨left, again, -⟩
          rw [parsed] at again
          obtain ⟨same, -⟩ := Prod.mk.inj (Except.ok.inj again)
          have trimmed : (value.dropWhile isTab).rdropWhile torIsspace = value := (Prod.mk.inj (Option.some.inj same)).2
          have start : value.dropWhile isTab = value := by
            apply suffix.eq_of_length_le
            have shorter := (List.rdropWhile_prefix torIsspace (l := value.dropWhile isTab)).length_le
            rw [trimmed] at shorter
            exact shorter
          rw [start] at trimmed ends
          refine ⟨head.mp start, fun space => ?_, fun backslash => absurd backslash ends⟩
          obtain ⟨w, rfl⟩ := List.getLast?_eq_some_iff.mp space
          have black := List.rdropWhile_eq_self_iff.mp trimmed (by simp)
          rw [List.getLast_append_singleton] at black
          exact black rfl
        · rintro ⟨start, stop, -⟩
          have trimmed : value.rdropWhile torIsspace = value := by
            rw [List.rdropWhile_eq_self_iff]
            intro nonempty space
            apply stop
            rw [List.getLast?_eq_getLast_of_ne_nil nonempty,
              (unescaped_inline escaped (List.getLast_mem nonempty)).2 space]
          rw [head.mpr start, trimmed] at parsed
          refine ⟨_, ?_, skipBlank_finishLine rest⟩
          rw [head.mpr start]
          exact parsed

/-- `config_dump` and the parser: a value of bytes is read back, and the rest of the file with it, exactly where it is
kept in the file. -/
theorem dumpLine_readBack_iff (name : OptionName) (value rest : { t : Text // IsCString t }) :
    (ReadBack (dumpLine name.text value) name value rest ↔ KeptInFile value rest) ∧
      (ReadBack (name.text ++ ' ' :: assignedValue value ++ ['\n']) name value rest ↔ KeptInFile value rest) := by
  obtain ⟨dumped, spaced⟩ := parse_dumped name value rest
  rw [ReadBack, ReadBack, dumped, spaced]
  exact ⟨readAs_iff value.2 name.text rest, readAs_iff value.2 name.text rest⟩

end RoundTrip

def dataDirectory : OptionName := ⟨"DataDirectory".toList, by decide, List.all_eq_true.mp rfl⟩

/-- A directory that is written with a backslash at its end swallows the line after it. -/
theorem dataDirectory_swallows_line :
    ¬ ReadBack (dumpLine dataDirectory.text "C:\\tor\\".toList) dataDirectory "C:\\tor\\".toList
      "SocksPort 9050\n".toList := by
  rintro ⟨left, parsed, -⟩
  have swallowed : parseConfigLine (dumpLine dataDirectory.text "C:\\tor\\".toList ++ "SocksPort 9050\n".toList) =
      .ok (some ("DataDirectory".toList, "C:\\torSocksPort 9050".toList), []) := rfl
  rw [swallowed] at parsed
  have value := (Prod.mk.inj (Option.some.inj (Prod.mk.inj (Except.ok.inj parsed)).1)).2
  exact absurd value (by decide)

end TorJet.Encoding
