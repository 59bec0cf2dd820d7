import TorJet.Dirparse.Tokens

/-!
# One token

`get_next_token`: a line with a keyword and its arguments, and an object that may follow it.
-/

namespace TorJet.Dirparse
open Base
open Encoding.Binascii (bytesOf base64DecodeMaxsize base64Decode)

section Reader
variable {κ : Type} (pk : CryptoPk κ) (doc : Bytes)

/-! ## The line -/

def skipOpt (s next eol eos : Nat) : Parse (Nat × Nat) := do
  if ← memEqToken doc s next (bytesOf "opt") then
    let s ← eatWhitespaceEosNoNl doc next eol
    let next ← findWhitespaceEos doc s eol
    return (s, next)
  else if s = eos then retErr (bytesOf "Unexpected EOF")
  else return (s, next)

/-- `*s < eol && **s == '@'` -/
def beginsAnnotation (s eol : Nat) : Parse Bool := if s < eol then memEqToken doc s (s + 1) (bytesOf "@") else .ok false

def unrecognized (s eol : Nat) : Parse (DirectoryToken κ) := do
  let annotation ← beginsAnnotation doc s eol
  let arg ← strndup doc s eol
  return ⟨if annotation then .aUnknown else .kOpt, [arg], none, none, none⟩

def ruleArguments (rule : TokenRule) (next eol : Nat) : Parse (List Bytes × Nat) := do
  let s ← eatWhitespaceEosNoNl doc next eol
  let mem ← strndup doc s eol
  if rule.concatArgs then return ([mem], s)
  else
    match getTokenArguments MAX_ARGS mem with
    | none => retErrOf (bytesOf "Far too many arguments to " ++ rule.t)
    | some args => return (args, eol)

def ruleToken (rule : TokenRule) (next eol : Nat) : Parse (DirectoryToken κ × Nat) := do
  let (args, s) ← ruleArguments doc rule next eol
  if args.length < rule.minArgs then retErrOf (bytesOf "Too few arguments to " ++ rule.t)
  else if args.length > rule.maxArgs then retErrOf (bytesOf "Too many arguments to " ++ rule.t)
  else return (⟨rule.v, args, none, none, none⟩, s)

structure Line (κ : Type) where
  tok : DirectoryToken κ
  kwd : Bytes
  os : ObjSyntax

/-- The first rule whose keyword is the word decides; the type `ERR_` is that of no rule. -/
def lookUp (table : List TokenRule) (s next eol : Nat) : Parse (Line κ) := do
  let word ← range doc s next
  match table.find? (·.t = word) with
  | none => return ⟨← unrecognized doc s eol, [], .objOk⟩
  | some rule =>
      let (tok, s) ← ruleToken doc rule next eol
      if tok.tp = .err then return ⟨← unrecognized doc s eol, rule.t, .objOk⟩
      else return ⟨tok, rule.t, rule.os⟩

/-- The first line from `s` on, with its end. -/
def getLine (table : List TokenRule) (s eos : Nat) : Parse (Line κ × Nat) := do
  let s ← eatWhitespaceEos doc s eos
  torAssert (s ≤ eos)
  let eol := (← memchr doc s 10 eos).getD eos
  if eol - s > MAX_LINE_LENGTH then retErr (bytesOf "Line far too long")
  else
    let next ← findWhitespaceEos doc s eol
    let (s, next) ← skipOpt doc s next eol eos
    return (← lookUp doc table s next eol, eol)

/-! ## The object -/

/-- The tag of the line from `s` up to `eol` that begins an object. -/
def beginTag (s eol : Nat) : Parse Bytes :=
  if eol - s ≤ 16 then retErr (bytesOf "Malformed object: bad begin line")
  else do
    let middle ← range doc (s + 11) (eol - 5)
    let dashes ← memEqToken doc (eol - 5) eol (bytesOf "-----")
    if middle.contains 0 || !dashes || eol - s > MAX_UNPARSED_OBJECT_SIZE then
      retErr (bytesOf "Malformed object: bad begin line")
    else strndup doc (s + 11) (eol - 5)

/-- The line from `next` up to `eol` ends an object with this tag, which has the length `obnameLen`. -/
def checkEnd (next eol obnameLen : Nat) (objectType : Bytes) : Parse Unit :=
  if eol - next ≠ 9 + obnameLen + 5 then retErrOf (bytesOf "Malformed object: mismatched end tag " ++ objectType)
  else do
    let name ← memEqToken doc (next + 9) (next + 9 + obnameLen) objectType
    let dashes ← memEqToken doc (eol - 5) eol (bytesOf "-----")
    if !name || !dashes then retErrOf (bytesOf "Malformed object: mismatched end tag " ++ objectType)
    else return ()

def objectBody (s next : Nat) : Parse Bytes :=
  if next - s > MAX_UNPARSED_OBJECT_SIZE then
    retErr (bytesOf "Couldn't parse object: missing footer or object much too big.")
  else
    match base64DecodeMaxsize (next - s) with
    | .error _ => .error (.fault .assertion)
    | .ok maxsize => do
        let src ← range doc s next
        match base64Decode (List.replicate maxsize 0) src with
        | .error _ => .error (.fault .outside)
        | .ok (r, body) =>
            if r < 0 then retErr (bytesOf "Malformed object: bad base64-encoded data") else return body.take r.toNat

def withObject (line : Line κ) (objectType body : Bytes) : Parse (Line κ) :=
  let tok := { line.tok with objectType := some objectType, objectBody := some body }
  if objectType = bytesOf "RSA PUBLIC KEY" then
    if line.os ≠ .optKey1024 ∧ line.os ≠ .needKey ∧ line.os ≠ .needKey1024 ∧ line.os ≠ .objOk then
      retErr (bytesOf "Unexpected public key.")
    else
      match pk.asn1Decode body with
      | none => retErr (bytesOf "Couldn't parse public key.")
      | some key => .ok { line with tok := { tok with key := some key } }
  else .ok { line with tok }

/-- An object whose first line goes from `s` up to `eol`, with the place behind it. -/
def readObject (line : Line κ) (s eol eos : Nat) : Parse (Line κ × Nat) := do
  let objectType ← beginTag doc s eol
  let obnameLen := eol - s - 16
  let s := eol + 1
  match ← torMemstr doc s eos (bytesOf "-----END ") with
  | none => retErr (bytesOf "Malformed object: missing object end line")
  | some next =>
      torAssert (next ≤ eos)
      let eol := (← memchr doc next 10 eos).getD eos
      checkEnd doc next eol obnameLen objectType
      let body ← objectBody doc s next
      return (← withObject pk line objectType body, eol)

/-- The object behind a line that ends at `eol`, if there is one. -/
def getObject (line : Line κ) (eol eos : Nat) : Parse (Line κ × Nat) := do
  let s ← eatWhitespaceEos doc eol eos
  torAssert (s ≤ eos)
  match ← memchr doc s 10 eos with
  | none => return (line, s)
  | some eol =>
      if eol - s < 11 then return (line, s)
      else if ← strcmpstart doc s (bytesOf "-----BEGIN ") then readObject pk doc line s eol eos
      else return (line, s)

/-- `get_next_token`, with the place behind the token. -/
def getNextToken (table : List TokenRule) (s eos : Nat) : Parse (DirectoryToken κ × Nat) := do
  let (line, eol) ← getLine doc table s eos
  let (line, s) ← getObject pk doc line eol eos
  return (← tokenCheckObject pk line.kwd line.tok line.os, s)

end Reader
end TorJet.Dirparse

/-!
## No read leaves the document

What `get_next_token` reads lies in the document, its assertions hold, and the token that it returns is one that the
table allows, on bytes that the call has moved past.
-/

namespace TorJet.Dirparse
open Base
open Encoding.Binascii (bytesOf ceilDiv base64DecodeMaxsize base64Decode_safe)

section Bounds
variable {κ : Type} {pk : CryptoPk κ} {doc : Bytes} {table : List TokenRule} {s next eol eos : Nat}

theorem torAssert_safe {holds : Bool} (true : holds = true) : Safe (torAssert holds) fun _ => True := by
  rw [torAssert, if_pos true]
  exact Safe.ok trivial

theorem memEqToken_gives {token : Bytes} (order : s ≤ eos) (inside : eos ≤ doc.length) :
    Gives (memEqToken doc s eos token) fun same => same = true → token.length = eos - s := by
  refine ⟨_, range_gives _ order inside, fun same => ?_⟩
  rw [← eq_of_beq same, length_part inside]

theorem strndup_gives (order : s ≤ eos) (inside : eos ≤ doc.length) : Gives (strndup doc s eos) fun _ => True :=
  ⟨_, range_gives _ order inside, trivial⟩

theorem range_safe (order : s ≤ eos) (inside : eos ≤ doc.length) :
    Safe (range doc s eos) fun r => r = part doc s eos := by
  rw [range_ok order inside]
  exact Safe.ok rfl

theorem memchr_end {c : UInt8} (order : s ≤ eos) (inside : eos ≤ doc.length) :
    Gives (memchr doc s c eos) fun found =>
      s ≤ found.getD eos ∧ found.getD eos ≤ eos ∧ (found.getD eos < eos → doc[found.getD eos]? = some c) := by
  obtain ⟨found, searched, here⟩ := memchr_gives order inside
  refine ⟨found, searched, ?_⟩
  cases found with
  | none => exact ⟨order, Nat.le_refl eos, fun low => absurd low (Nat.lt_irrefl _)⟩
  | some i =>
      obtain ⟨low, high, byte⟩ := here i rfl
      exact ⟨low, Nat.le_of_lt high, fun _ => byte⟩

/-! ## The line -/

inductive Reads (table : List TokenRule) : DirectoryKeyword → Nat → ObjSyntax → Prop
  | unrecognized {tp : DirectoryKeyword} (kind : tp = .kOpt ∨ tp = .aUnknown) : Reads table tp 1 .objOk
  | rule {rule : TokenRule} {n : Nat} (first : table.find? (·.t = rule.t) = some rule) (enough : rule.minArgs ≤ n)
      (few : n ≤ rule.maxArgs) : Reads table rule.v n rule.os

structure Line.Plain (table : List TokenRule) (line : Line κ) : Prop where
  reads : Reads table line.tok.tp line.tok.args.length line.os
  noKey : line.tok.key = none

theorem skipOpt_safe (startOk : s ≤ next) (nextOk : next ≤ eol) (eolOk : eol ≤ eos) (inside : eos ≤ doc.length) :
    Safe (skipOpt doc s next eol eos) fun found =>
      found.1 ≤ found.2 ∧ found.2 ≤ eol ∧ (s < eos ∨ s + 3 = next) := by
  refine (memEqToken_gives startOk (by omega)).bind fun isOpt size => Safe.ite (fun opt => ?_) fun _ => ?_
  · have three : 3 = next - s := size opt
    refine (eatWhitespaceEosNoNl_gives nextOk (by omega)).bind fun s' after => ?_
    refine (findWhitespaceEos_gives after.2 (by omega)).bind fun next' found => Safe.pure ?_
    exact ⟨found.1, found.2, .inr (by omega)⟩
  · refine Safe.ite (fun _ => Safe.refused _) fun more => Safe.pure ⟨startOk, nextOk, .inl ?_⟩
    omega

theorem unrecognized_safe (order : s ≤ eol) (inside : eol ≤ doc.length) :
    Safe (unrecognized doc s eol : Parse (DirectoryToken κ)) fun tok =>
      (tok.tp = .kOpt ∨ tok.tp = .aUnknown) ∧ tok.args.length = 1 ∧ tok.key = none := by
  have first : Safe ( beginsAnnotation doc s eol) fun _ => True :=
    Safe.ite (fun more => (memEqToken_gives (Nat.le_add_right s 1) (by omega)).safe.mono fun _ _ => trivial)
      fun _ => Safe.ok trivial
  refine first.bind fun annotation _ => (strndup_gives order inside).bind fun arg _ => Safe.pure ⟨?_, rfl, rfl⟩
  cases annotation with
  | false => exact .inl rfl
  | true => exact .inr rfl

theorem ruleArguments_safe (rule : TokenRule) (order : next ≤ eol) (inside : eol ≤ doc.length) :
    Safe (ruleArguments doc rule next eol) fun found => found.2 ≤ eol := by
  refine (eatWhitespaceEosNoNl_gives order inside).bind fun s after => ?_
  refine (strndup_gives after.2 inside).bind fun mem _ => Safe.ite (fun _ => Safe.pure after.2) fun _ => ?_
  split
  · exact Safe.refused _
  · exact Safe.pure (Nat.le_refl eol)

theorem ruleToken_safe (rule : TokenRule) (order : next ≤ eol) (inside : eol ≤ doc.length) :
    Safe (ruleToken doc rule next eol : Parse (DirectoryToken κ × Nat)) fun found =>
      found.2 ≤ eol ∧ found.1.tp = rule.v ∧ rule.minArgs ≤ found.1.args.length ∧ found.1.args.length ≤ rule.maxArgs ∧
        found.1.key = none := by
  refine (ruleArguments_safe rule order inside).bind ?_
  rintro ⟨args, s⟩ place
  refine Safe.ite (fun _ => Safe.refused _) fun enough => Safe.ite (fun _ => Safe.refused _) fun few => Safe.pure ?_
  exact ⟨place, rfl, Int.not_lt.mp enough, Int.not_lt.mp few, rfl⟩

theorem lookUp_safe (startOk : s ≤ next) (nextOk : next ≤ eol) (inside : eol ≤ doc.length) :
    Safe (lookUp doc table s next eol : Parse (Line κ)) (Line.Plain table) := by
  have plain {tok : DirectoryToken κ} {kwd : Bytes}
      (kind : (tok.tp = .kOpt ∨ tok.tp = .aUnknown) ∧ tok.args.length = 1 ∧ tok.key = none) :
      Line.Plain table ⟨tok, kwd, .objOk⟩ :=
    ⟨by dsimp only; rw [kind.2.1]; exact .unrecognized kind.1, kind.2.2⟩
  refine (range_safe startOk (by omega)).bind fun word _ => ?_
  split
  · exact (unrecognized_safe (by omega) inside).bind fun tok kind => Safe.pure (plain kind)
  · rename_i rule found
    refine (ruleToken_safe rule nextOk inside).bind ?_
    rintro ⟨tok, s'⟩ ⟨place, tp, enough, few, noKey⟩
    refine Safe.ite (fun _ => ?_) fun _ => Safe.pure ⟨?_, noKey⟩
    · exact (unrecognized_safe place inside).bind fun tok kind => Safe.pure (plain kind)
    · have text := of_decide_eq_true (List.find?_some (p := fun rule : TokenRule => decide (rule.t = word)) found)
      dsimp only at text tp ⊢
      rw [tp]
      exact .rule (text ▸ found) enough few

theorem getLine_safe (order : s ≤ eos) (inside : eos ≤ doc.length) :
    Safe (getLine doc table s eos : Parse (Line κ × Nat)) fun found =>
      found.1.Plain table ∧ s < found.2 ∧ found.2 ≤ eos ∧ (found.2 < eos → doc[found.2]? = some 10) := by
  refine (eatWhitespaceEos_gives order inside).bind fun s' skipped => ?_
  obtain ⟨from_s, to_eos, black, -⟩ := skipped
  refine (torAssert_safe (decide_eq_true to_eos)).bind fun _ _ => ?_
  refine (memchr_end to_eos inside).bind fun found ends => ?_
  obtain ⟨low, high, newline⟩ := ends
  dsimp only
  generalize found.getD eos = eol at *
  refine Safe.ite (fun _ => Safe.refused _) fun _ => ?_
  refine (findWhitespaceEos_gives low (by omega)).bind fun next word => ?_
  refine (skipOpt_safe word.1 word.2 high inside).bind ?_
  rintro ⟨s'', next'⟩ ⟨start, stop, more⟩
  refine (lookUp_safe start stop (by omega)).bind fun line plain => Safe.pure ⟨plain, ?_, high, newline⟩
  have later : s' < eos := by omega
  have first := black later
  have other : s' ≠ eol := by
    rintro rfl
    rw [newline later] at first
    cases first
  omega

/-! ## The object -/

theorem beginTag_safe (inside : eol ≤ doc.length) :
    Safe (beginTag doc s eol) fun _ => s + 16 < eol := by
  refine Safe.ite (fun _ => Safe.refused _) fun long => ?_
  refine (range_safe (by omega) (by omega)).bind fun middle _ => ?_
  refine (memEqToken_gives (by omega) inside).bind fun dashes _ => Safe.ite (fun _ => Safe.refused _) fun _ => ?_
  exact (strndup_gives (by omega) (by omega)).safe.mono fun _ _ => by omega

theorem checkEnd_safe {n : Nat} {objectType : Bytes} (inside : eol ≤ doc.length) :
    Safe (checkEnd doc next eol n objectType) fun _ => True := by
  refine Safe.ite (fun _ => Safe.refused _) fun size => ?_
  refine (memEqToken_gives (by omega) (by omega)).bind fun name _ => ?_
  refine (memEqToken_gives (by omega) inside).bind fun dashes _ => Safe.ite (fun _ => Safe.refused _) fun _ => ?_
  exact Safe.pure trivial

theorem objectBody_safe (order : s ≤ next) (inside : next ≤ doc.length) :
    Safe (objectBody doc s next) fun _ => True := by
  refine Safe.ite (fun _ => Safe.refused _) fun size => ?_
  have known : base64DecodeMaxsize (next - s) = .ok (ceilDiv ((next - s) * 3) 4) := by
    refine if_pos (Nat.lt_of_le_of_lt (Nat.not_lt.mp size) (by decide))
  rw [known]
  refine (range_safe order inside).bind fun src _ => ?_
  obtain ⟨r, body, decoded, -⟩ := base64Decode_safe (List.replicate (ceilDiv ((next - s) * 3) 4) 0) src
  rw [decoded]
  exact Safe.ite (fun _ => Safe.refused _) fun _ => Safe.pure trivial

structure Line.Read (table : List TokenRule) (line : Line κ) : Prop where
  reads : Reads table line.tok.tp line.tok.args.length line.os
  keyed : line.tok.key ≠ none → line.os ≠ .needObj

theorem Line.Plain.read {line : Line κ} (plain : line.Plain table) : line.Read table :=
  ⟨plain.reads, fun some => absurd plain.noKey some⟩

theorem withObject_safe {line : Line κ} (plain : line.Plain table) (objectType body : Bytes) :
    Safe (withObject pk line objectType body) (Line.Read table) := by
  refine Safe.ite (fun _ => Safe.ite (fun _ => Safe.refused _) fun keyed => ?_) fun _ => Safe.ok ⟨plain.reads, ?_⟩
  · split
    · exact Safe.refused _
    · refine Safe.ok ⟨plain.reads, fun _ need => keyed ?_⟩
      have os : line.os = .needObj := need
      rw [os]
      decide
  · exact fun some => absurd plain.noKey some

theorem readObject_safe {line : Line κ} (plain : line.Plain table) (low : eol < eos) (inside : eos ≤ doc.length) :
    Safe (readObject pk doc line s eol eos) fun found => found.1.Read table ∧ s < found.2 ∧ found.2 ≤ eos := by
  refine (beginTag_safe (by omega)).bind fun objectType long => ?_
  refine (torMemstr_gives low inside).bind fun found here => ?_
  cases found with
  | none => exact Safe.refused _
  | some next =>
      obtain ⟨after, before⟩ := here next rfl
      refine (torAssert_safe (decide_eq_true (Nat.le_of_lt before))).bind fun _ _ => ?_
      refine (memchr_end (Nat.le_of_lt before) inside).bind fun found ends => ?_
      obtain ⟨later, high, -⟩ := ends
      dsimp only
      generalize found.getD eos = eol' at *
      refine (checkEnd_safe (by omega)).bind fun _ _ => (objectBody_safe after (by omega)).bind fun body _ => ?_
      exact (withObject_safe plain objectType body).bind fun line' read => Safe.pure ⟨read, by omega, high⟩

theorem getObject_safe {line : Line κ} (plain : line.Plain table) (order : eol ≤ eos) (inside : eos ≤ doc.length)
    (newline : eol < eos → doc[eol]? = some 10) :
    Safe (getObject pk doc line eol eos) fun found =>
      found.1.Read table ∧ found.2 ≤ eos ∧ eol ≤ found.2 ∧ (eol < eos → eol < found.2) := by
  refine (eatWhitespaceEos_gives order inside).bind fun s skipped => ?_
  obtain ⟨from_eol, to_eos, -, white⟩ := skipped
  have later : eol < eos → eol < s := fun low => white low (by rw [newline low]; rfl)
  refine (torAssert_safe (decide_eq_true to_eos)).bind fun _ _ => (memchr_gives to_eos inside).bind fun found here => ?_
  cases found with
  | none => exact Safe.pure ⟨plain.read, to_eos, from_eol, later⟩
  | some eol' =>
      obtain ⟨low, high, -⟩ := here eol' rfl
      refine Safe.ite (fun _ => Safe.pure ⟨plain.read, to_eos, from_eol, later⟩) fun long => ?_
      have eleven : (bytesOf "-----BEGIN ").length = 11 := by decide
      have started : Gives (strcmpstart doc s (bytesOf "-----BEGIN ")) fun _ => True :=
        ⟨_, range_gives _ (Nat.le_add_right s _) (by rw [eleven]; omega), trivial⟩
      refine started.bind fun begins _ => ?_
      refine Safe.ite (fun _ => ?_) fun _ => Safe.pure ⟨plain.read, to_eos, from_eol, later⟩
      refine (readObject_safe plain high inside).mono ?_
      rintro ⟨line', s'⟩ ⟨read, after, before⟩
      dsimp only at after before ⊢
      exact ⟨read, before, by omega, by omega⟩

/-! ## The token -/

def ReadWith (pk : CryptoPk κ) (table : List TokenRule) (tok : DirectoryToken κ) : Prop :=
  ∃ os, Reads table tok.tp tok.args.length os ∧ os.Allows pk tok

theorem getNextToken_safe (order : s ≤ eos) (inside : eos ≤ doc.length) :
    Safe (getNextToken pk doc table s eos) fun found =>
      ReadWith pk table found.1 ∧ s < found.2 ∧ found.2 ≤ eos ∧ (s + 2 ≤ found.2 ∨ found.2 = eos) := by
  refine (getLine_safe order inside).bind ?_
  rintro ⟨line, eol⟩ ⟨plain, after, before, newline⟩
  refine (getObject_safe plain before inside newline).bind ?_
  rintro ⟨line', s'⟩ ⟨read, high, low, later⟩
  refine (tokenCheckObject_safe line'.kwd line'.tok line'.os read.keyed).bind ?_
  rintro tok ⟨rfl, allows⟩
  dsimp only at after before high low later
  exact Safe.pure ⟨⟨line'.os, read.reads, allows⟩, by dsimp only; omega, high, by dsimp only; omega⟩

end Bounds
end TorJet.Dirparse
