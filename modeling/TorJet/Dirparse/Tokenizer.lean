import TorJet.Dirparse.Reader

/-!
# The tokenizer

`tokenize_string`, which reads the tokens of a document and checks them against its table, and the functions that find
tokens by their keywords.
-/

namespace TorJet.Dirparse
open Base
open Encoding.Binascii (intMax)

/-- The flags `TS_ANNOTATIONS_OK`, `TS_NOCHECK` and `TS_NO_NEW_ANNOTATIONS`. -/
structure TsFlags where
  annotationsOk : Bool
  nocheck : Bool
  noNewAnnotations : Bool
  deriving DecidableEq

/-- `counts`, an array without a place for `NIL_`. -/
abbrev Counts := DirectoryKeyword → Int

def readCount (counts : Counts) (v : DirectoryKeyword) : Parse Int :=
  if v = .nil then .error (.fault .index) else .ok (counts v)

/-- `++counts[tp]` -/
def increment (counts : Counts) (tp : DirectoryKeyword) : Parse Counts :=
  if tp = .nil then .error (.fault .index)
  else if counts tp = intMax then .error (.fault .overflow)
  else .ok fun k => if k = tp then counts k + 1 else counts k

section Tokenizer
variable {κ : Type} (pk : CryptoPk κ) (doc : Bytes) (table : List TokenRule)

/-- A list has at most `INT_MAX` members. -/
def smartlistAdd (out : List (DirectoryToken κ)) (tok : DirectoryToken κ) : Parse (List (DirectoryToken κ)) :=
  if out.length < intMax then .ok (out ++ [tok]) else .error (.fault .assertion)

def countAll : List (DirectoryToken κ) → Counts → Parse Counts
  | [], counts => .ok counts
  | tok :: out, counts => increment counts tok.tp >>= countAll out

/-- The loop of `tokenize_string`, with whether it comes to its end without an error token. -/
def tokenizeLoop : (fuel s : Nat) → (last : Option DirectoryKeyword) → Counts → List (DirectoryToken κ) →
    Parse (Bool × Counts × List (DirectoryToken κ))
  | 0, _, _, _, _ => .error (.fault .unfinished)
  | fuel + 1, s, last, counts, out =>
      if s < doc.length ∧ last ≠ some .eof then
        match getNextToken pk doc table s doc.length with
        | .error (.refused _) => .ok (false, counts, out)
        | .error (.fault what) => .error (.fault what)
        | .ok (tok, s) => do
            let counts ← increment counts tok.tp
            let out ← smartlistAdd out tok
            let s ← eatWhitespaceEos doc s doc.length
            tokenizeLoop fuel s (some tok.tp) counts out
      else .ok (true, counts, out)

/-- The bytes from `start` up to `end`, or up to the NUL at the end of the string; there are none if an internal NUL is
found. -/
def document (mem : Bytes) (stop : Option Nat) : Parse (Option Bytes) :=
  match stop with
  | none =>
      match mem.idxOf? 0 with
      | none => .error (.fault .outside)
      | some n => .ok (some (mem.take n))
  | some n => (range mem 0 n).map fun doc => if doc.contains 0 then none else some doc

def firstNonannotation (flags : TsFlags) (prevLen : Nat) (out : List (DirectoryToken κ)) : Option Nat :=
  if flags.annotationsOk then
    match out.findIdx? fun tok => ! isAnnotation tok.tp with
    | none => none
    | some first =>
        if (out.drop first).any fun tok => isAnnotation tok.tp then none
        else if flags.noNewAnnotations && first ≠ prevLen then none
        else some first
  else if out.any fun tok => isAnnotation tok.tp then none
  else some 0

def checkPos (out : List (DirectoryToken κ)) (asked : Bool) (i : Nat) (v : DirectoryKeyword) : Parse Bool :=
  if asked then
    if out.length < 1 then .ok false
    else
      match out[i]? with
      | none => .error (.fault .index)
      | some tok => .ok (tok.tp = v)
  else .ok true

def checkRule (counts : Counts) (out : List (DirectoryToken κ)) (first : Nat) (rule : TokenRule) : Parse Bool := do
  let count ← readCount counts rule.v
  if count < rule.minCnt then return false
  else if count > rule.maxCnt then return false
  else
    let starts ← checkPos out rule.atStart first rule.v
    let ends ← checkPos out rule.atEnd (out.length - 1) rule.v
    return starts && ends

def checkRules (counts : Counts) (out : List (DirectoryToken κ)) (first : Nat) : List TokenRule → Parse Bool
  | [] => .ok true
  | rule :: rules => do
      if ← checkRule counts out first rule then checkRules counts out first rules else return false

/-- `tokenize_string` on the memory from `start` on, with what it returns and leaves in `out`. -/
def tokenizeString (mem : Bytes) (stop : Option Nat) (out : List (DirectoryToken κ)) (flags : TsFlags) :
    Parse (Int × List (DirectoryToken κ)) := do
  match ← document mem stop with
  | none => return (-1, out)
  | some doc =>
      let counts ← countAll out fun _ => 0
      let (done, counts, all) ← tokenizeLoop pk doc table (doc.length + 1) 0 none counts out
      if !done then return (-1, all)
      else if flags.nocheck then return (0, all)
      else
        match firstNonannotation flags out.length all with
        | none => return (-1, all)
        | some first => if ← checkRules counts all first table then return (0, all) else return (-1, all)

def findOptByKeyword (s : List (DirectoryToken κ)) (keyword : DirectoryKeyword) : Option (DirectoryToken κ) :=
  s.find? (·.tp = keyword)

def findByKeyword (s : List (DirectoryToken κ)) (keyword : DirectoryKeyword) : Parse (DirectoryToken κ) :=
  match findOptByKeyword s keyword with
  | none => .error (.fault .assertion)
  | some tok => .ok tok

def findAllByKeyword (s : List (DirectoryToken κ)) (k : DirectoryKeyword) : Option (List (DirectoryToken κ)) :=
  if (s.filter (·.tp = k)).isEmpty then none else some (s.filter (·.tp = k))

end Tokenizer
end TorJet.Dirparse

/-!
## More tokens than a list can have

A document of 2³² - 1 bytes can hold 2³¹ tokens, one more than a list has places for.
-/

namespace TorJet.Dirparse
open Base
open Encoding.Binascii (bytesOf intMax)

def letters : Nat → Bytes
  | 0 => [97]
  | m + 1 => 97 :: 10 :: letters m

theorem length_letters (m : Nat) : (letters m).length = 2 * m + 1 := by
  induction m with
  | zero => rfl
  | succ m ih =>
      rw [letters, List.length_cons, List.length_cons, ih]
      omega

theorem letters_black (m : Nat) : (0 : UInt8) ∉ letters m := by
  induction m with
  | zero => decide
  | succ m ih =>
      rw [letters, List.mem_cons, List.mem_cons]
      exact not_or.mpr ⟨by decide, not_or.mpr ⟨by decide, ih⟩⟩

theorem letters_cons (m : Nat) : ∃ more, letters m = 97 :: more ∧ (more.idxOf? 10).all (· = 0) = true := by
  cases m with
  | zero => exact ⟨[], rfl, rfl⟩
  | succ m => exact ⟨10 :: letters m, rfl, rfl⟩

section Flood
variable {κ : Type} {pk : CryptoPk κ} {front : Bytes} {m : Nat}

theorem range_append (front mid back : Bytes) {doc : Bytes} {a b : Nat} (whole : doc = front ++ (mid ++ back))
    (start : a = front.length) (stop : b = front.length + mid.length) : range doc a b = .ok mid := by
  subst whole start stop
  rw [range_ok (Nat.le_add_right _ _) (by simp), part, List.take_append, List.take_of_length_le (Nat.le_add_right _ _),
    Nat.add_sub_cancel_left, List.take_left, List.drop_left]

def letter : DirectoryToken κ := ⟨.kOpt, [[97]], none, none, none⟩

theorem letter_tp : (letter : DirectoryToken κ).tp = .kOpt := rfl

theorem lookUp_letter {doc : Bytes} {s : Nat} (byte : range doc s (s + 1) = .ok [97]) :
    lookUp doc [] s (s + 1) (s + 1) = .ok (⟨letter, [], .objOk⟩ : Line κ) := by
  have same : memEqToken doc s (s + 1) (bytesOf "@") = .ok false := by
    rw [memEqToken, byte]
    decide
  rw [lookUp, byte]
  dsimp only [Bind.bind, Except.bind, List.find?_nil]
  rw [unrecognized, beginsAnnotation, if_pos (Nat.lt_succ_self s), same, strndup, byte]
  rfl

theorem getLine_letter {doc : Bytes} {s eos : Nat} {more : Bytes} (rest : range doc s eos = .ok (97 :: more))
    (byte : range doc s (s + 1) = .ok [97]) (size : eos = s + 1 + more.length)
    (ends : ((more.idxOf? 10).map (s + 1 + ·)).getD eos = s + 1) :
    getLine doc [] s eos = .ok ((⟨letter, [], .objOk⟩ : Line κ), s + 1) := by
  have skipped : eatWhitespaceEos doc s eos = .ok s := by
    rw [eatWhitespaceEos, rest]
    show Except.ok (eos - (more.length + 1)) = Except.ok s
    rw [size, Nat.add_assoc, Nat.add_comm 1, Nat.add_sub_cancel]
  have searched : memchr doc s 10 eos = .ok ((more.idxOf? 10).map (s + 1 + ·)) := by
    rw [memchr, rest]
    show Except.ok (((97 :: more).idxOf? 10).map (s + ·)) = _
    rw [List.idxOf?_cons, if_neg (by decide), Option.map_map]
    have shift : (s + ·) ∘ (· + 1) = (s + 1 + ·) := funext fun k => by dsimp only [Function.comp]; omega
    rw [shift]
  have word : findWhitespaceEos doc s (s + 1) = .ok (s + 1) := by
    rw [findWhitespaceEos, byte]
    rfl
  have other : memEqToken doc s (s + 1) (bytesOf "opt") = .ok false := by
    rw [memEqToken, byte]
    decide
  have skip : skipOpt doc s (s + 1) (s + 1) eos = .ok (s, s + 1) := by
    rw [skipOpt, other]
    show (if s = eos then _ else _) = _
    rw [if_neg (by omega)]
    rfl
  rw [getLine, skipped]
  dsimp only [Bind.bind, Except.bind]
  rw [torAssert, if_pos (decide_eq_true (by omega)), searched]
  dsimp only
  rw [ends, if_neg (by rw [MAX_LINE_LENGTH]; omega), word]
  dsimp only
  rw [skip]
  dsimp only
  rw [lookUp_letter byte]
  rfl

theorem getObject_none {doc : Bytes} {line : Line κ} {s eol eos : Nat} {found : Option Nat}
    (skipped : eatWhitespaceEos doc eol eos = .ok s) (order : s ≤ eos) (searched : memchr doc s 10 eos = .ok found)
    (near : ∀ i ∈ found, i - s < 11) : getObject pk doc line eol eos = .ok (line, s) := by
  rw [getObject, skipped]
  dsimp only [Bind.bind, Except.bind]
  rw [torAssert, if_pos (decide_eq_true order), searched]
  cases found with
  | none => rfl
  | some i => exact if_pos (near i rfl)

theorem getNextToken_letters {doc : Bytes} {s : Nat} (whole : doc = front ++ letters (m + 1))
    (start : s = front.length) :
    getNextToken pk doc [] s doc.length = .ok (letter, s + 2) ∧
      eatWhitespaceEos doc (s + 2) doc.length = .ok (s + 2) := by
  obtain ⟨more, first, near⟩ := letters_cons m
  have size : doc.length = s + 1 + (10 :: letters m).length := by
    rw [whole, start, letters, List.length_append, List.length_cons]
    omega
  have rest : range doc s doc.length = .ok (97 :: 10 :: letters m) :=
    range_append front _ [] (by rw [List.append_nil, whole, letters]) start
      (by simp only [size, start, List.length_cons]; omega)
  have byte : range doc s (s + 1) = .ok [97] := range_append front _ (10 :: letters m) whole start (by rw [start]; rfl)
  have behind : range doc (s + 1) doc.length = .ok (10 :: letters m) :=
    range_append (front ++ [97]) _ [] (by simp [whole, letters]) (by simp [start]) (by simp [size, start])
  have further : range doc (s + 2) doc.length = .ok (letters m) :=
    range_append (front ++ [97, 10]) _ [] (by simp [whole, letters]) (by simp [start]) (by simp [size, start]; omega)
  have black : eatWhitespace (letters m) = letters m := by
    rw [first]
    rfl
  have place : doc.length - (letters m).length = s + 2 := by
    rw [size, List.length_cons]
    omega
  have skipped : eatWhitespaceEos doc (s + 1) doc.length = .ok (s + 2) := by
    rw [eatWhitespaceEos, behind]
    show Except.ok (doc.length - (eatWhitespace (10 :: letters m)).length) = _
    rw [eatWhitespace_space rfl, black, place]
  have stays : eatWhitespaceEos doc (s + 2) doc.length = .ok (s + 2) := by
    rw [eatWhitespaceEos, further]
    show Except.ok (doc.length - (eatWhitespace (letters m)).length) = _
    rw [black, place]
  have searched : memchr doc (s + 2) 10 doc.length = .ok (((letters m).idxOf? 10).map (s + 2 + ·)) := by
    rw [memchr, further]
    rfl
  refine ⟨?_, stays⟩
  rw [getNextToken, getLine_letter rest byte size rfl]
  dsimp only [Bind.bind, Except.bind]
  rw [getObject_none skipped (by omega) searched]
  · rfl
  · intro i found
    rw [first, List.idxOf?_cons, if_neg (by decide)] at found
    obtain ⟨k, behind, rfl⟩ := Option.map_eq_some_iff.mp found
    obtain ⟨j, newline, rfl⟩ := Option.map_eq_some_iff.mp behind
    rw [newline] at near
    have zero : j = 0 := of_decide_eq_true near
    omega

theorem getNextToken_last {doc : Bytes} {s : Nat} (whole : doc = front ++ letters 0) (start : s = front.length) :
    getNextToken pk doc [] s doc.length = .ok (letter, doc.length) := by
  have size : doc.length = s + 1 := by
    rw [whole, start, letters, List.length_append]
    rfl
  have rest : range doc s doc.length = .ok [97] :=
    range_append front _ [] (by rw [List.append_nil, whole, letters]) start (by rw [size, start]; rfl)
  have behind : range doc doc.length doc.length = .ok [] :=
    range_append doc [] [] (by simp) rfl rfl
  have skipped : eatWhitespaceEos doc doc.length doc.length = .ok doc.length := by
    rw [eatWhitespaceEos, behind]
    rfl
  have searched : memchr doc doc.length 10 doc.length = .ok none := by
    rw [memchr, behind]
    rfl
  rw [getNextToken, getLine_letter rest (by rw [← size]; exact rest) (by rw [size]; rfl) size]
  dsimp only [Bind.bind, Except.bind]
  rw [← size, getObject_none skipped (Nat.le_refl _) searched fun _ none => (Option.not_mem_none _ none).elim]
  rfl

theorem tokenizeLoop_fault {doc : Bytes} {fuel s s' : Nat} {last : Option DirectoryKeyword} {counts : Counts}
    {tok : DirectoryToken κ} {out : List (DirectoryToken κ)} (low : s < doc.length) (more : last ≠ some .eof)
    (next : getNextToken pk doc [] s doc.length = .ok (tok, s')) (full : intMax ≤ out.length) :
    ∃ what, tokenizeLoop pk doc [] (fuel + 1) s last counts out = .error (.fault what) := by
  rw [tokenizeLoop, if_pos ⟨low, more⟩, next]
  dsimp only
  rw [increment]
  split
  · exact ⟨.index, rfl⟩
  split
  · exact ⟨.overflow, rfl⟩
  · dsimp only [Bind.bind, Except.bind]
    rw [smartlistAdd, if_neg (Nat.not_lt.mpr full)]
    exact ⟨.assertion, rfl⟩

theorem tokenizeLoop_full {doc : Bytes} {fuel s : Nat} {last : Option DirectoryKeyword} {counts : Counts}
    {out : List (DirectoryToken κ)} (whole : doc = front ++ letters m) (start : s = front.length) (enough : m < fuel)
    (more : last ≠ some .eof) (many : intMax ≤ out.length + m) :
    ∃ what, tokenizeLoop pk doc [] fuel s last counts out = .error (.fault what) := by
  obtain ⟨fuel, rfl⟩ := Nat.exists_eq_add_of_lt (Nat.zero_lt_of_lt enough)
  rw [Nat.zero_add] at enough ⊢
  have size : doc.length = s + (2 * m + 1) := by rw [whole, start, List.length_append, length_letters]
  induction m generalizing front fuel s last counts out with
  | zero => exact tokenizeLoop_fault (by omega) more (getNextToken_last whole start) many
  | succ m ih =>
      obtain ⟨next, stays⟩ := getNextToken_letters whole start
      by_cases full : intMax ≤ out.length
      · exact tokenizeLoop_fault (by omega) more next full
      · rw [tokenizeLoop, if_pos ⟨by omega, more⟩, next]
        dsimp only
        rw [increment, letter_tp, if_neg (by decide)]
        split
        · exact ⟨.overflow, rfl⟩
        · dsimp only [Bind.bind, Except.bind]
          rw [smartlistAdd, if_pos (by omega)]
          dsimp only
          rw [stays]
          dsimp only
          obtain ⟨fuel, rfl⟩ := Nat.exists_eq_add_of_lt (show 0 < fuel by omega)
          rw [Nat.zero_add]
          have shifted : doc = (front ++ [97, 10]) ++ letters m := by simp [whole, letters]
          refine ih shifted (by simp [start]) (by decide) ?_ fuel (by omega) (by omega)
          rw [List.length_append, List.length_singleton]
          omega

theorem tokenizeString_full (flags : TsFlags) (many : intMax ≤ m) :
    ∃ what, tokenizeString pk [] (letters m) (some (2 * m + 1)) [] flags = .error (.fault what) := by
  have size := length_letters m
  have whole : part (letters m) 0 (2 * m + 1) = letters m := by
    rw [part, List.drop_zero, List.take_of_length_le (Nat.le_of_eq size)]
  have read : document (letters m) (some (2 * m + 1)) = .ok (some (letters m)) := by
    rw [document, range_ok (Nat.zero_le _) (Nat.le_of_eq size.symm), whole]
    exact congrArg Except.ok (if_neg fun inside => letters_black m (List.contains_iff_mem.mp inside))
  have full : ∃ what, tokenizeLoop pk (letters m) [] ((letters m).length + 1) 0 none (fun _ => 0) [] =
      .error (.fault what) :=
    tokenizeLoop_full (List.nil_append (letters m)).symm rfl (by omega) (by decide)
      (by rw [List.length_nil, Nat.zero_add]; exact many)
  obtain ⟨what, fault⟩ := full
  refine ⟨what, ?_⟩
  rw [tokenizeString, read]
  dsimp only [Bind.bind, Except.bind]
  rw [countAll]
  dsimp only
  rw [fault]

end Flood
end TorJet.Dirparse
