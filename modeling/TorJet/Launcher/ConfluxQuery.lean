import Mathlib.Algebra.Group.Int.Defs
import TorJet.Control.Reply
import TorJet.Launcher.ControlPort

/-!
# The legs that the launcher sees

What the launcher makes of the reply to CONFLUX QUERY.
-/

namespace TorJet.Launcher
open Base Base.Text Control

/-- What `NumberStyles.Integer` allows around a number. -/
def isNumberSpace (c : Char) : Bool := (9 ≤ c.toNat && c.toNat ≤ 13) || c = ' '

def parseDigits (s : Text) : Option Nat :=
  let digits := s.takeWhile isDecimal
  if digits.isEmpty || !((s.dropWhile isDecimal).dropWhile isNumberSpace).all (· = '\x00') then none
  else some (Net.decimal digits)

/-- `int.TryParse` and `long.TryParse`: the value, or 0. -/
def tryParse (min max : Int) (s : Option Text) : Int :=
  match s with
  | none => 0
  | some s =>
      let s := s.dropWhile isNumberSpace
      let n : Option Int :=
        if s.head? = some '-' then (parseDigits s.tail).map fun n => -(n : Int)
        else if s.head? = some '+' then (parseDigits s.tail).map fun n => (n : Int)
        else (parseDigits s).map fun n => (n : Int)
      match n with
      | some n => if min ≤ n ∧ n ≤ max then n else 0
      | none => 0

def intTryParse (s : Option Text) : Int := tryParse (-2 ^ 31) (2 ^ 31 - 1) s

def longTryParse (s : Option Text) : Int := tryParse (-2 ^ 63) (2 ^ 63 - 1) s

/-- `ToString` of an integer. -/
def intToString (n : Int) : Text := if n < 0 then '-' :: unsigned n.natAbs else unsigned n.natAbs

def token (line key : Text) : Option Text :=
  let p := key ++ ['=']
  ((line.splitOn ' ').find? p.isPrefixOf).map (·.drop p.length)

/-- One entry of `ConfluxQuery`. -/
structure LegEntry where
  set : Text
  circ : Text
  exit : Text
  legs : Text
  state : Text
  rttUs : Text
  streams : Text
  bytes : Text
  deriving DecidableEq

/-- What `ConfluxQuery` makes of a line. -/
def legEntry (k : Casing) (raw : Text) : Option LegEntry :=
  let line := trim raw
  if line.length = 0 then none
  else if k.startsWith line "CONFLUX status".toList then none
  else
    match token line "SET".toList with
    | none => none
    | some set =>
        let exit := token line "EXIT".toList
        let state := token line "STATE".toList
        let legsN := intTryParse (token line "LEGS".toList)
        let rttUs := intTryParse (token line "RTT_US".toList)
        let streams := longTryParse (token line "STREAMS".toList)
        let bytes := longTryParse (token line "BYTES".toList)
        some {
          set := set
          circ := (token line "CIRC".toList).getD ['?']
          exit := exit.getD ['?']
          legs := intToString legsN
          state := state.getD ['?']
          rttUs := intToString rttUs
          streams := intToString streams
          bytes := intToString bytes }

/-- `ConfluxQuery`, of what `ControlCommand` returns. -/
def confluxQuery (k : Casing) (lines : Option (List Text)) : Option (List LegEntry) :=
  lines.map (·.filterMap (legEntry k))

/-! ## What tor reports -/

def reportedLeg (circ : Circuit) (nonce : Control.Nonce) : LegEntry :=
  match circ.conflux with
  | some cfx => {
      set := hexStr nonce.1 16
      circ := unsigned circ.globalIdentifier.toNat
      exit := exitHex circ
      legs := unsigned cfx.legs.1.length
      state := "LINKED".toList
      rttUs := unsigned (confluxGetCircRtt circ).toNat
      streams := unsigned cfx.totalStreams.toNat
      bytes := unsigned (cfx.bytesSent + cfx.bytesRecv).toNat }
  | none => {
      set := hexStr nonce.1 16
      circ := unsigned circ.globalIdentifier.toNat
      exit := ['?']
      legs := ['0']
      state := "UNLINKED".toList
      rttUs := ['0']
      streams := ['0']
      bytes := ['0'] }

def reported (circ : Circuit) : Option LegEntry :=
  if circ.isOrigin && !circ.markedForClose then
    (confluxGetNonce circ).map (reportedLeg circ)
  else none

def QuerySurvives (k : Casing) (globalList : List Circuit) : Prop :=
  ∀ cookieHex later,
    confluxQuery k ((controlCommandFor (some cookieHex)
        (sendControlDone ++ handleControlConfluxQuery ["QUERY".toList] globalList ++ later)).map (·.1)) =
      some (globalList.filterMap reported)

def Fits (circ : Circuit) : Prop :=
  circ.isOrigin = true → circ.markedForClose = false → ∀ cfx ∈ circ.conflux,
    (confluxGetCircRtt circ).toNat < 2 ^ 31 ∧ cfx.totalStreams.toNat < 2 ^ 63 ∧
      (cfx.bytesSent + cfx.bytesRecv).toNat < 2 ^ 63

/-! ## Numbers and tokens -/

section Numbers
variable {n : Nat} {s : Text} {min max : Int}

theorem isDecimal_unsigned {c : Char} (mem : c ∈ unsigned n) : isDecimal c = true := by
  have digit := Net.torIsdigit_toDigits mem
  exact digit

theorem parseDigits_unsigned (n : Nat) : parseDigits (unsigned n) = some n := by
  have all : ∀ c ∈ unsigned n, isDecimal c = true := fun c mem => isDecimal_unsigned mem
  have digits : (unsigned n).takeWhile isDecimal = unsigned n := List.takeWhile_eq_self_iff.mpr all
  have rest : (unsigned n).dropWhile isDecimal = [] := List.dropWhile_eq_nil_iff.mpr all
  have nonempty : (unsigned n).isEmpty = false := by
    rw [List.isEmpty_eq_false_iff]
    exact Nat.toDigits_ne_nil
  rw [parseDigits, digits, rest]
  simp only [nonempty]
  exact congrArg some (Net.decimal_toDigits n)

theorem isDecimal_toNat {c : Char} (decimal : isDecimal c = true) : 48 ≤ c.toNat ∧ c.toNat ≤ 57 := by
  rw [isDecimal, Bool.and_eq_true, decide_eq_true_eq, decide_eq_true_eq, Char.le_def, Char.le_def] at decimal
  exact decimal

theorem tryParse_unsigned (n : Nat) (low : min ≤ 0) :
    tryParse min max (some (unsigned n)) = if (n : Int) ≤ max then (n : Int) else 0 := by
  have nonempty : unsigned n ≠ [] := Nat.toDigits_ne_nil
  obtain ⟨c, rest, digits⟩ := List.exists_cons_of_ne_nil nonempty
  have inside : c ∈ unsigned n := by
    rw [digits]
    exact List.mem_cons_self
  have range := isDecimal_toNat (isDecimal_unsigned inside)
  have space : isNumberSpace c = false := by
    have notBlank : c ≠ ' ' := by
      rintro rfl
      exact absurd range.1 (by decide)
    rw [isNumberSpace, decide_eq_false notBlank, Bool.or_false, decide_eq_false (by omega : ¬ c.toNat ≤ 13), Bool.and_false]
  have start : (unsigned n).dropWhile isNumberSpace = unsigned n := by
    rw [digits, List.dropWhile_cons_of_neg (by rw [space]; exact Bool.false_ne_true)]
  have noMinus : (unsigned n).head? ≠ some '-' := by
    rw [digits, List.head?_cons]
    rintro same
    rw [Option.some.inj same] at range
    exact absurd range.1 (by decide)
  have noPlus : (unsigned n).head? ≠ some '+' := by
    rw [digits, List.head?_cons]
    rintro same
    rw [Option.some.inj same] at range
    exact absurd range.1 (by decide)
  simp only [tryParse, start, if_neg noMinus, if_neg noPlus, parseDigits_unsigned]
  have zero : min ≤ (n : Int) := by omega
  exact if_congr (and_iff_right zero) rfl rfl

theorem intToString_natCast (n : Nat) : intToString n = unsigned n := by
  rw [intToString, if_neg (by omega), Int.natAbs_natCast]

theorem printed_iff (min max : Int) (n : Nat) (low : min ≤ 0) (zero : 0 ≤ max) :
    intToString (tryParse min max (some (unsigned n))) = unsigned n ↔ (n : Int) ≤ max := by
  rw [tryParse_unsigned n low]
  by_cases fits : (n : Int) ≤ max
  · rw [if_pos fits]
    exact iff_of_true (intToString_natCast n) fits
  · rw [if_neg fits]
    refine iff_of_false (fun same => fits ?_) fits
    have digits : unsigned 0 = unsigned n := same
    have value := congrArg Net.decimal digits
    rw [unsigned, unsigned, Net.decimal_toDigits, Net.decimal_toDigits] at value
    omega

end Numbers

section Tokens
variable {t key value : Text} {tokens : List Text}

def Black (t : Text) : Prop := ∀ c ∈ t, isWhiteSpace c = false

instance (t : Text) : Decidable (Black t) := List.decidableBAll (fun c => isWhiteSpace c = false) t

theorem intercalate_mem {c : Char} (mem : c ∈ [' '].intercalate tokens) : c = ' ' ∨ ∃ t ∈ tokens, c ∈ t := by
  induction tokens with
  | nil => cases mem
  | cons t tokens ih =>
      by_cases last : tokens = []
      · subst last
        rw [List.intercalate_singleton] at mem
        exact .inr ⟨t, List.mem_cons_self, mem⟩
      · rw [List.intercalate_cons_of_ne_nil last, List.mem_append, List.mem_append] at mem
        obtain (mem | mem) | mem := mem
        · exact .inr ⟨t, List.mem_cons_self, mem⟩
        · exact .inl (List.mem_singleton.mp mem)
        · exact (ih mem).imp_right fun ⟨t, inside, part⟩ => ⟨t, List.mem_cons_of_mem _ inside, part⟩

theorem oneLine_intercalate (black : ∀ t ∈ tokens, Black t) : OneLine ([' '].intercalate tokens) := by
  intro c mem
  obtain rfl | ⟨t, inside, part⟩ := intercalate_mem mem
  · decide
  · exact oneLine_of_black (black t inside) c part

theorem splitOn_intercalate (black : ∀ t ∈ tokens, Black t) (some : tokens ≠ []) :
    ([' '].intercalate tokens).splitOn ' ' = tokens := by
  refine List.splitOn_intercalate _ ?_ some
  intro t mem blank
  cases black t mem ' ' blank

theorem trim_of_ends (first : ∀ c ∈ t.head?, isWhiteSpace c = false) (last : ∀ c ∈ t.getLast?, isWhiteSpace c = false) :
    trim t = t := by
  have start : trimStart t = t := by
    cases t with
    | nil => rfl
    | cons c t =>
        rw [trimStart, List.dropWhile_cons_of_neg]
        rw [first c rfl]
        exact Bool.false_ne_true
  rw [trim, start, trimEnd, List.rdropWhile_eq_self_iff]
  intro nonempty
  rw [last _ (List.getLast?_eq_some_getLast nonempty)]
  exact Bool.false_ne_true

theorem trim_intercalate (black : ∀ t ∈ tokens, Black t) (nonempty : ∀ t ∈ tokens, t ≠ []) :
    trim ([' '].intercalate tokens) = [' '].intercalate tokens := by
  apply trim_of_ends
  · cases tokens with
    | nil => exact fun c head => by cases head
    | cons t tokens =>
        intro c head
        refine black t List.mem_cons_self c (List.mem_of_mem_head? ?_)
        have some := nonempty t List.mem_cons_self
        by_cases last : tokens = []
        · rwa [last, List.intercalate_singleton] at head
        · rw [List.intercalate_cons_of_ne_nil last, List.append_assoc, List.head?_append_of_ne_nil _ some] at head
          exact head
  · induction tokens with
    | nil => exact fun c last => by cases last
    | cons t tokens ih =>
        intro c last
        by_cases alone : tokens = []
        · rw [alone, List.intercalate_singleton] at last
          exact black t List.mem_cons_self c (List.mem_of_getLast? last)
        · have some : [' '].intercalate tokens ≠ [] := by
            obtain ⟨u, more, rfl⟩ := List.exists_cons_of_ne_nil alone
            have first := nonempty u (List.mem_cons_of_mem _ List.mem_cons_self)
            by_cases single : more = []
            · rwa [single, List.intercalate_singleton]
            · rw [List.intercalate_cons_of_ne_nil single]
              exact fun empty => by simp at empty
          rw [List.intercalate_cons_of_ne_nil alone, List.getLast?_append_of_ne_nil _ some] at last
          exact ih (fun t mem => black t (List.mem_cons_of_mem _ mem)) (fun t mem => nonempty t (List.mem_cons_of_mem _ mem)) c last

theorem token_intercalate (black : ∀ t ∈ tokens, Black t) (some : tokens ≠ []) :
    token ([' '].intercalate tokens) key = (tokens.find? (key ++ ['=']).isPrefixOf).map (·.drop (key ++ ['=']).length) := by
  rw [token, splitOn_intercalate black some]

end Tokens
/-! ## The lines of the reply -/

section Lines
variable {circ : Circuit} {nonce : Control.Nonce} {cfx : Control.Conflux} {bytes : List UInt8} {n : Nat}

theorem black_unsigned (n : Nat) : Black (unsigned n) := by
  intro c mem
  obtain ⟨low, high⟩ := isDecimal_toNat (isDecimal_unsigned mem)
  simp only [isWhiteSpace, Bool.or_eq_false_iff, Bool.and_eq_false_iff, decide_eq_false_iff_not]
  omega

theorem black_hexStr (bytes : List UInt8) (n : Nat) : Black (hexStr bytes n) := by
  have digits : ∀ n < 16, isWhiteSpace (hexStr.digit n) = false := by decide
  intro c mem
  obtain ⟨b, -, inside⟩ := List.mem_flatMap.mp mem
  have small := b.toNat_lt
  obtain rfl | inside := List.mem_cons.mp inside
  · exact digits _ (by omega)
  · rw [List.mem_singleton.mp inside]
    exact digits _ (Nat.mod_lt _ (by decide))

theorem black_exitHex (circ : Circuit) : Black (exitHex circ) := by
  unfold exitHex
  split
  · exact black_hexStr _ _
  · decide

theorem Black.append {s t : Text} (first : Black s) (second : Black t) : Black (s ++ t) := fun c mem =>
  (List.mem_append.mp mem).elim (first c) (second c)

def linkedTokens (circ : Circuit) (nonce : Control.Nonce) (cfx : Control.Conflux) : List Text :=
  ["SET=".toList ++ hexStr nonce.1 16, "CIRC=".toList ++ unsigned circ.globalIdentifier.toNat,
    "EXIT=".toList ++ exitHex circ, "LEGS=".toList ++ unsigned cfx.legs.1.length, "STATE=LINKED".toList,
    "RTT_US=".toList ++ unsigned (confluxGetCircRtt circ).toNat, "STREAMS=".toList ++ unsigned cfx.totalStreams.toNat,
    "BYTES=".toList ++ unsigned (cfx.bytesSent + cfx.bytesRecv).toNat]

def unlinkedTokens (circ : Circuit) (nonce : Control.Nonce) : List Text :=
  ["SET=".toList ++ hexStr nonce.1 16, "CIRC=".toList ++ unsigned circ.globalIdentifier.toNat, "EXIT=?".toList,
    "STATE=UNLINKED".toList]

theorem linkedLine_tokens (circ : Circuit) (nonce : Control.Nonce) (cfx : Control.Conflux) :
    linkedLine circ nonce cfx = [' '].intercalate (linkedTokens circ nonce cfx) := by
  have spaced : linkedLine circ nonce cfx =
      "SET=".toList ++ hexStr nonce.1 16 ++ ([' '] ++ "CIRC=".toList) ++ unsigned circ.globalIdentifier.toNat ++
        ([' '] ++ "EXIT=".toList) ++ exitHex circ ++ ([' '] ++ "LEGS=".toList) ++ unsigned cfx.legs.1.length ++
        ([' '] ++ ("STATE=LINKED".toList ++ ([' '] ++ "RTT_US=".toList))) ++ unsigned (confluxGetCircRtt circ).toNat ++
        ([' '] ++ "STREAMS=".toList) ++ unsigned cfx.totalStreams.toNat ++
        ([' '] ++ "BYTES=".toList) ++ unsigned (cfx.bytesSent + cfx.bytesRecv).toNat := rfl
  rw [spaced, linkedTokens]
  simp only [List.intercalate_cons_cons, List.intercalate_singleton, List.append_assoc]

theorem unlinkedLine_tokens (circ : Circuit) (nonce : Control.Nonce) :
    unlinkedLine circ nonce = [' '].intercalate (unlinkedTokens circ nonce) := by
  have spaced : unlinkedLine circ nonce =
      "SET=".toList ++ hexStr nonce.1 16 ++ ([' '] ++ "CIRC=".toList) ++ unsigned circ.globalIdentifier.toNat ++
        ([' '] ++ ("EXIT=?".toList ++ ([' '] ++ "STATE=UNLINKED".toList))) := rfl
  rw [spaced, unlinkedTokens]
  simp only [List.intercalate_cons_cons, List.intercalate_singleton, List.append_assoc]

theorem black_linkedTokens : ∀ t ∈ linkedTokens circ nonce cfx, Black t := by
  have label : ∀ w : Text, Black w → ∀ t : Text, Black t → Black (w ++ t) := fun w first t second => first.append second
  simp only [linkedTokens, List.forall_mem_cons]
  refine ⟨?_, ?_, ?_, ?_, ?_, ?_, ?_, ?_, fun t mem => absurd mem List.not_mem_nil⟩
  · exact label _ (by decide) _ (black_hexStr _ _)
  · exact label _ (by decide) _ (black_unsigned _)
  · exact label _ (by decide) _ (black_exitHex _)
  · exact label _ (by decide) _ (black_unsigned _)
  · decide
  · exact label _ (by decide) _ (black_unsigned _)
  · exact label _ (by decide) _ (black_unsigned _)
  · exact label _ (by decide) _ (black_unsigned _)

theorem black_unlinkedTokens : ∀ t ∈ unlinkedTokens circ nonce, Black t := by
  have label : ∀ w : Text, Black w → ∀ t : Text, Black t → Black (w ++ t) := fun w first t second => first.append second
  simp only [unlinkedTokens, List.forall_mem_cons]
  refine ⟨?_, ?_, ?_, ?_, fun t mem => absurd mem List.not_mem_nil⟩
  · exact label _ (by decide) _ (black_hexStr _ _)
  · exact label _ (by decide) _ (black_unsigned _)
  · decide
  · decide

theorem linkedTokens_nonempty : ∀ t ∈ linkedTokens circ nonce cfx, t ≠ [] := by simp [linkedTokens]

theorem unlinkedTokens_nonempty : ∀ t ∈ unlinkedTokens circ nonce, t ≠ [] := by simp [unlinkedTokens]

def linkedEntry (circ : Circuit) (nonce : Control.Nonce) (cfx : Control.Conflux) : LegEntry where
  set := hexStr nonce.1 16
  circ := unsigned circ.globalIdentifier.toNat
  exit := exitHex circ
  legs := intToString (intTryParse (some (unsigned cfx.legs.1.length)))
  state := "LINKED".toList
  rttUs := intToString (intTryParse (some (unsigned (confluxGetCircRtt circ).toNat)))
  streams := intToString (longTryParse (some (unsigned cfx.totalStreams.toNat)))
  bytes := intToString (longTryParse (some (unsigned (cfx.bytesSent + cfx.bytesRecv).toNat)))

theorem legEntry_tokens (k : Casing) (tokens : List Text) {rest : Text} {more : List Text}
    (first : tokens = ('S' :: rest) :: more) (black : ∀ t ∈ tokens, Black t) (nonempty : ∀ t ∈ tokens, t ≠ []) :
    trim ([' '].intercalate tokens) = [' '].intercalate tokens ∧ ([' '].intercalate tokens).length ≠ 0 ∧
      k.startsWith ([' '].intercalate tokens) "CONFLUX status".toList = false := by
  have head : ([' '].intercalate tokens).head? = some 'S' := by
    subst first
    cases more with
    | nil => rfl
    | cons t more => rfl
  have different : k.upper 'S' ≠ k.upper 'C' := by
    rw [(k.ascii 'S' (by decide)).1, (k.ascii 'C' (by decide)).1]
    decide
  refine ⟨trim_intercalate black nonempty, ?_, k.startsWith_false different head⟩
  intro empty
  rw [List.length_eq_zero_iff.mp empty] at head
  cases head

theorem legEntry_linked (k : Casing) (circ : Circuit) (nonce : Control.Nonce) (cfx : Control.Conflux) :
    legEntry k (linkedLine circ nonce cfx) = some (linkedEntry circ nonce cfx) := by
  have black : ∀ t ∈ linkedTokens circ nonce cfx, Black t := black_linkedTokens
  have find (key : Text) : token (linkedLine circ nonce cfx) key =
      ((linkedTokens circ nonce cfx).find? (key ++ ['=']).isPrefixOf).map (·.drop (key ++ ['=']).length) := by
    rw [linkedLine_tokens]
    exact token_intercalate black (List.cons_ne_nil _ _)
  obtain ⟨trimmed, long, other⟩ := legEntry_tokens k (linkedTokens circ nonce cfx) rfl black linkedTokens_nonempty
  rw [← linkedLine_tokens] at trimmed long other
  have set : token (linkedLine circ nonce cfx) "SET".toList = some (hexStr nonce.1 16) := find _
  have circuit : token (linkedLine circ nonce cfx) "CIRC".toList = some (unsigned circ.globalIdentifier.toNat) := find _
  have exit : token (linkedLine circ nonce cfx) "EXIT".toList = some (exitHex circ) := find _
  have legs : token (linkedLine circ nonce cfx) "LEGS".toList = some (unsigned cfx.legs.1.length) := find _
  have state : token (linkedLine circ nonce cfx) "STATE".toList = some "LINKED".toList := find _
  have rtt : token (linkedLine circ nonce cfx) "RTT_US".toList = some (unsigned (confluxGetCircRtt circ).toNat) := find _
  have streams : token (linkedLine circ nonce cfx) "STREAMS".toList = some (unsigned cfx.totalStreams.toNat) := find _
  have bytes : token (linkedLine circ nonce cfx) "BYTES".toList =
      some (unsigned (cfx.bytesSent + cfx.bytesRecv).toNat) := find _
  simp only [legEntry, trimmed, if_neg long, other, Bool.false_eq_true, if_false, set, circuit, exit, legs, state, rtt, streams,
    bytes, Option.getD_some, linkedEntry]

theorem legEntry_unlinked (k : Casing) (circ : Circuit) (nonce : Control.Nonce) (unlinked : circ.conflux = none) :
    legEntry k (unlinkedLine circ nonce) = some (reportedLeg circ nonce) := by
  have black : ∀ t ∈ unlinkedTokens circ nonce, Black t := black_unlinkedTokens
  have find (key : Text) : token (unlinkedLine circ nonce) key =
      ((unlinkedTokens circ nonce).find? (key ++ ['=']).isPrefixOf).map (·.drop (key ++ ['=']).length) := by
    rw [unlinkedLine_tokens]
    exact token_intercalate black (List.cons_ne_nil _ _)
  obtain ⟨trimmed, long, other⟩ := legEntry_tokens k (unlinkedTokens circ nonce) rfl black unlinkedTokens_nonempty
  rw [← unlinkedLine_tokens] at trimmed long other
  have set : token (unlinkedLine circ nonce) "SET".toList = some (hexStr nonce.1 16) := find _
  have circuit : token (unlinkedLine circ nonce) "CIRC".toList = some (unsigned circ.globalIdentifier.toNat) := find _
  have exit : token (unlinkedLine circ nonce) "EXIT".toList = some ['?'] := find _
  have legs : token (unlinkedLine circ nonce) "LEGS".toList = none := find _
  have state : token (unlinkedLine circ nonce) "STATE".toList = some "UNLINKED".toList := find _
  have rtt : token (unlinkedLine circ nonce) "RTT_US".toList = none := find _
  have streams : token (unlinkedLine circ nonce) "STREAMS".toList = none := find _
  have bytes : token (unlinkedLine circ nonce) "BYTES".toList = none := find _
  simp only [legEntry, trimmed, if_neg long, other, Bool.false_eq_true, if_false, set, circuit, exit, legs, state, rtt, streams,
    bytes, Option.getD_some, reportedLeg, unlinked]
  rfl

theorem linkedEntry_iff (circ : Circuit) (nonce : Control.Nonce) (cfx : Control.Conflux) (linked : circ.conflux = some cfx) :
    linkedEntry circ nonce cfx = reportedLeg circ nonce ↔
      (confluxGetCircRtt circ).toNat < 2 ^ 31 ∧ cfx.totalStreams.toNat < 2 ^ 63 ∧
        (cfx.bytesSent + cfx.bytesRecv).toNat < 2 ^ 63 := by
  have legs : intToString (intTryParse (some (unsigned cfx.legs.1.length))) = unsigned cfx.legs.1.length := by
    have few := cfx.legs.2
    exact (printed_iff _ _ _ (by decide) (by decide)).mpr (by omega)
  have rtt := printed_iff (-2 ^ 31) (2 ^ 31 - 1) (confluxGetCircRtt circ).toNat (by decide) (by decide)
  have streams := printed_iff (-2 ^ 63) (2 ^ 63 - 1) cfx.totalStreams.toNat (by decide) (by decide)
  have bytes := printed_iff (-2 ^ 63) (2 ^ 63 - 1) (cfx.bytesSent + cfx.bytesRecv).toNat (by decide) (by decide)
  rw [linkedEntry, reportedLeg, linked, LegEntry.mk.injEq]
  simp only [legs, true_and]
  rw [intTryParse, longTryParse, longTryParse, rtt, streams, bytes]
  constructor
  · rintro ⟨r, s, b⟩
    omega
  · rintro ⟨r, s, b⟩
    omega

end Lines

/-! ## The reply -/

section Survives
variable (k : Casing) {circ : Circuit} {globalList : List Circuit} {line : Text}

def readLeg (circ : Circuit) (nonce : Control.Nonce) : LegEntry :=
  match circ.conflux with
  | some cfx => linkedEntry circ nonce cfx
  | none => reportedLeg circ nonce

def readCircuit (circ : Circuit) : Option LegEntry :=
  if circ.isOrigin && !circ.markedForClose then (confluxGetNonce circ).map (readLeg circ) else none

theorem legEntry_legLine (circ : Circuit) (nonce : Control.Nonce) : legEntry k (legLine circ nonce) = some (readLeg circ nonce) := by
  unfold legLine readLeg
  cases linked : circ.conflux with
  | some cfx => exact legEntry_linked k circ nonce cfx
  | none => exact legEntry_unlinked k circ nonce linked

theorem queryLine_eq (circ : Circuit) :
    queryLine circ =
      if circ.isOrigin && !circ.markedForClose then (confluxGetNonce circ).map (legLine circ) else none := by
  unfold queryLine
  cases circ.isOrigin with
  | false => rfl
  | true =>
      cases circ.markedForClose with
      | true => rfl
      | false =>
          rw [Bool.not_true, Bool.or_false, if_neg Bool.false_ne_true, Bool.not_false, Bool.and_true, if_pos rfl]
          unfold confluxGetNonce
          cases circ.conflux <;> cases circ.confluxPendingNonce <;> rfl

theorem queryLine_read (circ : Circuit) :
    (queryLine circ).bind (legEntry k) = readCircuit circ := by
  rw [queryLine_eq, readCircuit]
  split
  · cases confluxGetNonce circ with
    | none => rfl
    | some nonce => exact legEntry_legLine k circ nonce
  · rfl

theorem oneLine_queryLine (said : queryLine circ = some line) : line.OneLine := by
  rw [queryLine_eq] at said
  split_ifs at said
  obtain ⟨nonce, -, rfl⟩ := Option.map_eq_some_iff.mp said
  unfold legLine
  split
  · rw [linkedLine_tokens]
    exact oneLine_intercalate black_linkedTokens
  · rw [unlinkedLine_tokens]
    exact oneLine_intercalate black_unlinkedTokens

theorem oneLine_queryLines : ∀ line ∈ queryLines globalList, line.OneLine := by
  intro line mem
  unfold queryLines at mem
  dsimp only at mem
  split at mem
  · rw [List.mem_singleton.mp mem]
    decide
  · obtain ⟨circ, -, said⟩ := List.mem_filterMap.mp mem
    exact oneLine_queryLine said

theorem legEntry_status : legEntry k "CONFLUX status".toList = none := by
  have trimmed : trim "CONFLUX status".toList = "CONFLUX status".toList := by decide
  have status : k.startsWith "CONFLUX status".toList "CONFLUX status".toList = true :=
    List.isPrefixOf_iff_prefix.mpr (List.prefix_refl _)
  rw [legEntry, trimmed]
  exact if_pos status

theorem legEntry_noSets : legEntry k "(no conflux sets)".toList = none := by
  have trimmed : trim "(no conflux sets)".toList = "(no conflux sets)".toList := by decide
  have noSet : token "(no conflux sets)".toList "SET".toList = none := by decide
  rw [legEntry, trimmed]
  simp only [noSet, ite_self]

theorem confluxQuery_reply (cookieHex later : Text) (globalList : List Circuit) :
    confluxQuery k ((controlCommandFor (some cookieHex)
        (sendControlDone ++ handleControlConfluxQuery ["QUERY".toList] globalList ++ later)).map (·.1)) =
      some (globalList.filterMap readCircuit) := by
  have one : ∀ t ∈ "CONFLUX status".toList :: queryLines globalList, OneLine t :=
    List.forall_mem_cons.mpr ⟨by decide, oneLine_queryLines⟩
  have reply : handleControlConfluxQuery ["QUERY".toList] globalList =
      ("CONFLUX status".toList :: queryLines globalList).flatMap (controlWriteMidreply 250) ++
        controlWriteEndreply 250 "OK".toList := by
    rw [handleControlConfluxQuery, if_neg (by simp), List.flatMap_cons]
  have all : (globalList.filterMap queryLine).filterMap (legEntry k) = globalList.filterMap readCircuit := by
    rw [List.filterMap_filterMap]
    exact List.filterMap_congr fun circ _ => queryLine_read k circ
  have lines : (queryLines globalList).filterMap (legEntry k) = globalList.filterMap readCircuit := by
    rw [← all, queryLines]
    split
    · rename_i empty
      rw [empty, List.filterMap_cons_none (legEntry_noSets k)]
    · rfl
  rw [reply, controlCommandFor_midreplies cookieHex one]
  simp only [Option.map_some, confluxQuery, List.filterMap_cons_none (legEntry_status k), lines]

theorem readCircuit_isSome (circ : Circuit) : (readCircuit circ).isSome = (reported circ).isSome := by
  unfold readCircuit reported
  split
  · rw [Option.isSome_map, Option.isSome_map]
  · rfl

theorem readCircuit_eq_iff (circ : Circuit) : readCircuit circ = reported circ ↔ Fits circ := by
  unfold readCircuit reported Fits
  by_cases shown : (circ.isOrigin && !circ.markedForClose) = true
  swap
  · rw [if_neg shown, if_neg shown]
    refine iff_of_true rfl fun origin marked => absurd ?_ shown
    rw [origin, marked]
    rfl
  rw [if_pos shown, if_pos shown]
  rw [Bool.and_eq_true, Bool.not_eq_true'] at shown
  unfold readLeg confluxGetNonce
  cases linked : circ.conflux with
  | none => exact iff_of_true rfl fun _ _ cfx mem => by cases mem
  | some cfx =>
      have leg : ∀ nonce, some (linkedEntry circ nonce cfx) = some (reportedLeg circ nonce) ↔ _ := fun nonce =>
        (Option.some.injEq _ _).to_iff.trans (linkedEntry_iff circ nonce cfx linked)
      have fits : (circ.isOrigin = true → circ.markedForClose = false → ∀ cfx' ∈ some cfx,
          (confluxGetCircRtt circ).toNat < 2 ^ 31 ∧ cfx'.totalStreams.toNat < 2 ^ 63 ∧
            (cfx'.bytesSent + cfx'.bytesRecv).toNat < 2 ^ 63) ↔ _ :=
        ⟨fun holds => holds shown.1 shown.2 cfx rfl, fun holds _ _ cfx' same => by cases same; exact holds⟩
      rw [fits]
      cases circ.confluxPendingNonce with
      | some nonce => exact leg nonce
      | none => exact leg cfx.nonce

theorem filterMap_eq_iff : globalList.filterMap readCircuit = globalList.filterMap reported ↔
    ∀ circ ∈ globalList, readCircuit circ = reported circ := by
  refine ⟨fun same => ?_, fun each => List.filterMap_congr each⟩
  induction globalList with
  | nil => exact fun circ mem => by cases mem
  | cons circ globalList ih =>
      have both := readCircuit_isSome circ
      rw [List.filterMap_cons, List.filterMap_cons] at same
      cases read : readCircuit circ with
      | none =>
          cases told : reported circ with
          | none =>
              rw [read, told] at same
              exact List.forall_mem_cons.mpr ⟨read.trans told.symm, ih same⟩
          | some entry =>
              rw [read, told] at both
              cases both
      | some entry =>
          cases told : reported circ with
          | none =>
              rw [read, told] at both
              cases both
          | some other =>
              rw [read, told] at same
              obtain ⟨here, rest⟩ := List.cons.inj same
              exact List.forall_mem_cons.mpr ⟨by rw [read, told, here], ih rest⟩

/-- The launcher sees the legs as they are just when their values fit its integers. -/
theorem querySurvives_iff (globalList : List Circuit) : QuerySurvives k globalList ↔ ∀ circ ∈ globalList, Fits circ := by
  have each : (∀ circ ∈ globalList, readCircuit circ = reported circ) ↔ ∀ circ ∈ globalList, Fits circ :=
    forall₂_congr fun circ _ => readCircuit_eq_iff circ
  rw [← each, ← filterMap_eq_iff]
  constructor
  · intro survives
    have same := survives [] []
    rw [confluxQuery_reply] at same
    exact Option.some.inj same
  · intro same cookieHex later
    rw [confluxQuery_reply, same]

/-- A leg with a round-trip time of 36 minutes shows up with 0. -/
theorem long_rtt_lost : ¬ ∀ globalList, QuerySurvives Casing.plain globalList := by
  intro all
  let cfx : Control.Conflux := ⟨⟨List.replicate 32 7, rfl⟩, ⟨[⟨1, 2160000000⟩], by decide⟩, 3, 1000, 2000⟩
  let circ : Circuit := ⟨1, true, false, some cfx, none, 12, none⟩
  have same := all [circ] [] []
  rw [confluxQuery_reply] at same
  exact absurd same (by decide +kernel)

end Survives
end TorJet.Launcher
