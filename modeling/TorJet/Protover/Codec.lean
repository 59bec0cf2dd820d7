import TorJet.Base.Bits
import TorJet.Net.CString

/-!
# Protocol lists

Parsing and encoding the lists of subprotocols that relays and consensuses announce.
-/

namespace TorJet.Protover
open Base Net

def MAX_PROTOCOL_VERSION : Nat := 63

def MAX_PROTOCOL_NAME_LENGTH : Nat := 100

/-- The `n` bytes of `is_valid_keyword` are the whole text. -/
def isValidKeyword (s : Text) : Bool := s.all fun c => torIsalpha c || torIsdigit c || c = '-'

def nameOk (name : Text) : Bool := name ≠ [] && name.length ≤ MAX_PROTOCOL_NAME_LENGTH && isValidKeyword name

/-- A `proto_entry_t` with a valid name. -/
structure ProtoEntry where
  name : Text
  bitmask : BitVec 64
  valid : nameOk name = true
  deriving DecidableEq

/-! Parsing. A text between two pointers is a text here: no number or keyword goes on over its end. -/

/-- A digit, and `tor_parse_ulong` in base 10 up to the largest version. -/
def readVersion (s : Text) : Option (Nat × Text) :=
  let digits := s.takeWhile torIsdigit
  if digits = [] ∨ MAX_PROTOCOL_VERSION < decimal digits then none else some (decimal digits, s.drop digits.length)

def parseVersionRange (range : Text) : Option (Nat × Nat) :=
  match readVersion range with
  | none => none
  | some (low, []) => some (low, low)
  | some (low, c :: rest) =>
      if c = '-' then
        match readVersion rest with
        | some (high, []) => if high < low then none else some (low, high)
        | _ => none
      else none

def bitmaskForRange (low high : Nat) : BitVec 64 := Bits.range 64 low high

/-- The loop of `parse_single_entry` over the ranges; the fuel is the length of the text. -/
def parseRanges : Nat → Text → BitVec 64 → Option (BitVec 64)
  | 0, s, bitmask => if s = [] then some bitmask else none
  | fuel + 1, s, bitmask =>
      if s = [] then some bitmask
      else
        let range := s.takeWhile (· ≠ ',')
        let rest := s.drop range.length
        match parseVersionRange range with
        | none => none
        | some (low, high) =>
            -- a comma at the end stays, and then it is no range
            parseRanges fuel (if 1 < rest.length then rest.tail else rest) (bitmask ||| bitmaskForRange low high)

def parseSingleEntry (entry : Text) : Option ProtoEntry :=
  let name := entry.takeWhile (· ≠ '=')
  let rest := entry.drop name.length
  if rest = [] then none
  else if valid : nameOk name = true then (parseRanges rest.length rest.tail 0).map fun bitmask => ⟨name, bitmask, valid⟩
  else none

/-- The loop of `parse_protocol_list`; the fuel is the length of the text. -/
def parseEntries : Nat → Text → Option (List ProtoEntry)
  | 0, s => if s = [] then some [] else none
  | fuel + 1, s =>
      if s = [] then some []
      else
        let entry := s.takeWhile (· ≠ ' ')
        match parseSingleEntry entry with
        | none => none
        | some parsed => (parseEntries fuel ((s.drop entry.length).dropWhile (· = ' '))).map (parsed :: ·)

def parseProtocolList (s : Text) : Option (List ProtoEntry) := parseEntries s.length s

/-! Encoding. -/

/-- `trailing_zeros`, which is undefined for zero. -/
def trailingZeros (x : BitVec 64) : Option Nat := Bits.lowest x

/-- `%d` -/
def printNumber (n : Nat) : Text := Nat.toDigits 10 n

def printRange (shift ones : Nat) : Text :=
  if ones = 1 then printNumber shift else printNumber shift ++ '-' :: printNumber (shift + ones - 1)

/-- The loop of `proto_entry_encode_into`; nothing when it does something undefined. -/
def encodeRanges : Nat → BitVec 64 → Nat → Bool → Option Text
  | 0, _, _, _ => none
  | fuel + 1, mask, shift, first =>
      if mask = 0 then some []
      else
        let comma := if first then [] else [',']
        match trailingZeros mask with
        | none => none
        | some zeros =>
            let mask := mask >>> zeros
            let shift := shift + zeros
            match (if mask = 0 then some 64 else trailingZeros (~~~mask)) with
            | none => none
            | some ones =>
                let chunk := comma ++ printRange shift ones
                if ones = 64 then some chunk
                else (encodeRanges fuel (mask >>> ones) (shift + ones) false).map (chunk ++ ·)

def protoEntryEncodeInto (entry : ProtoEntry) : Option Text :=
  (encodeRanges 65 entry.bitmask 0 true).map (entry.name ++ '=' :: ·)

def encodeEntries (separator : Text) : List ProtoEntry → Option Text
  | [] => some []
  | entry :: rest =>
      match protoEntryEncodeInto entry, encodeEntries [' '] rest with
      | some chunk, some chunks => some (separator ++ chunk ++ chunks)
      | _, _ => none

def encodeProtocolList (entries : List ProtoEntry) : Option Text := encodeEntries [] entries

end TorJet.Protover

/-!
## What a protocol list supports

The two questions that are asked of a list: one version of a protocol, or that version or a later one.
-/

namespace TorJet.Protover
open Base Net

inductive ProtocolType
  | link | linkauth | relay | dircache | hsdir | hsintro | hsrend | desc | microdesc | padding | cons | flowctrl
  | conflux
  deriving DecidableEq, Repr

def protocolTypeToStr : ProtocolType → Text
  | .link => "Link".toList
  | .linkauth => "LinkAuth".toList
  | .relay => "Relay".toList
  | .dircache => "DirCache".toList
  | .hsdir => "HSDir".toList
  | .hsintro => "HSIntro".toList
  | .hsrend => "HSRend".toList
  | .desc => "Desc".toList
  | .microdesc => "Microdesc".toList
  | .padding => "Padding".toList
  | .cons => "Cons".toList
  | .flowctrl => "FlowCtrl".toList
  | .conflux => "Conflux".toList

def findEntryByName (protos : List ProtoEntry) (name : Text) : Option ProtoEntry :=
  protos.find? fun entry => strcmp entry.name name = 0

def bit (i : Nat) : BitVec 64 := 1#64 <<< i

def protocolListContains (protos : List ProtoEntry) (pr : ProtocolType) (ver : Nat) : Bool :=
  if MAX_PROTOCOL_VERSION < ver then false
  else
    match findEntryByName protos (protocolTypeToStr pr) with
    | some entry => entry.bitmask &&& bit ver ≠ 0
    | none => false

def protocolListSupportsProtocol (list : Text) (tp : ProtocolType) (version : Nat) : Bool :=
  match parseProtocolList list with
  | none => false
  | some protocols => protocolListContains protocols tp version

def protocolListSupportsProtocolOrLater (list : Text) (tp : ProtocolType) (version : Nat) : Bool :=
  match parseProtocolList list with
  | none => false
  | some protocols =>
      protocols.any fun proto =>
        strcasecmp proto.name (protocolTypeToStr tp) && proto.bitmask &&& bitmaskForRange version 63 ≠ 0

section Masks
variable {x : BitVec 64} {i v : Nat}

theorem and_range_ne_zero : x &&& bitmaskForRange v 63 ≠ 0 ↔ ∃ w, v ≤ w ∧ w ≤ 63 ∧ x.getLsbD w = true := by
  rw [Bits.and_ne_zero]
  constructor
  · rintro ⟨w, inX, there⟩
    rw [bitmaskForRange, Bits.getLsbD_range (by decide), Bool.and_eq_true, decide_eq_true_eq, decide_eq_true_eq] at there
    exact ⟨w, there.1, there.2, inX⟩
  · rintro ⟨w, from_, last, inX⟩
    refine ⟨w, inX, ?_⟩
    rw [bitmaskForRange, Bits.getLsbD_range (by decide), decide_eq_true from_, decide_eq_true last]
    rfl

end Masks

/-- The entry lists a version from `v` on. -/
def ProtoEntry.ListsFrom (entry : ProtoEntry) (v : Nat) : Prop := ∃ w, v ≤ w ∧ w ≤ 63 ∧ entry.bitmask.getLsbD w = true

section Queries
variable {list : Text} {tp : ProtocolType} {v w : Nat} {protos : List ProtoEntry}

theorem contains_iff (small : w ≤ 63) : protocolListContains protos tp w = true ↔
    ∃ entry, findEntryByName protos (protocolTypeToStr tp) = some entry ∧ entry.bitmask.getLsbD w = true := by
  rw [protocolListContains, if_neg (show ¬ MAX_PROTOCOL_VERSION < w from Nat.not_lt.mpr small)]
  cases findEntryByName protos (protocolTypeToStr tp) with
  | none => simp
  | some entry =>
      dsimp only
      rw [decide_eq_true_eq, bit, Bits.and_shifted_one_ne_zero (Nat.lt_succ_of_le small)]
      simp

theorem supports_iff (small : w ≤ 63) : protocolListSupportsProtocol list tp w = true ↔
    ∃ protos entry, parseProtocolList list = some protos ∧
      findEntryByName protos (protocolTypeToStr tp) = some entry ∧ entry.bitmask.getLsbD w = true := by
  rw [protocolListSupportsProtocol]
  cases parseProtocolList list with
  | none => simp
  | some protos =>
      dsimp only
      rw [contains_iff small]
      simp

theorem supports_later_iff : (∃ w, v ≤ w ∧ w ≤ 63 ∧ protocolListSupportsProtocol list tp w = true) ↔
    ∃ protos entry, parseProtocolList list = some protos ∧
      findEntryByName protos (protocolTypeToStr tp) = some entry ∧ entry.ListsFrom v := by
  constructor
  · rintro ⟨w, from_, small, supports⟩
    obtain ⟨protos, entry, parsed, found, set⟩ := (supports_iff small).mp supports
    exact ⟨protos, entry, parsed, found, w, from_, small, set⟩
  · rintro ⟨protos, entry, parsed, found, w, from_, small, set⟩
    exact ⟨w, from_, small, (supports_iff small).mpr ⟨protos, entry, parsed, found, set⟩⟩

theorem orLater_iff : protocolListSupportsProtocolOrLater list tp v = true ↔
    ∃ protos, parseProtocolList list = some protos ∧
      ∃ entry ∈ protos, strcasecmp entry.name (protocolTypeToStr tp) = true ∧ entry.ListsFrom v := by
  rw [protocolListSupportsProtocolOrLater]
  cases parseProtocolList list with
  | none => simp
  | some protos =>
      dsimp only
      rw [List.any_eq_true]
      constructor
      · rintro ⟨entry, mem, both⟩
        rw [Bool.and_eq_true, decide_eq_true_eq, and_range_ne_zero] at both
        exact ⟨protos, rfl, entry, mem, both⟩
      · rintro ⟨_, same, entry, mem, named, lists⟩
        obtain rfl := Option.some.inj same
        refine ⟨entry, mem, ?_⟩
        rw [Bool.and_eq_true, decide_eq_true_eq, and_range_ne_zero]
        exact ⟨named, lists⟩

theorem findEntryByName_spec {entry : ProtoEntry} {name : Text} (found : findEntryByName protos name = some entry) :
    entry ∈ protos ∧ entry.name = name := by
  rw [findEntryByName] at found
  have named := List.find?_some found
  rw [decide_eq_true_eq, strcmp_eq_zero] at named
  exact ⟨List.mem_of_find?_eq_some found, named⟩

theorem orLater_of_supports (supports : ∃ w, v ≤ w ∧ w ≤ 63 ∧ protocolListSupportsProtocol list tp w = true) :
    protocolListSupportsProtocolOrLater list tp v = true := by
  obtain ⟨protos, entry, parsed, found, lists⟩ := supports_later_iff.mp supports
  obtain ⟨mem, named⟩ := findEntryByName_spec found
  refine orLater_iff.mpr ⟨protos, parsed, entry, mem, ?_, lists⟩
  rw [strcasecmp, named, decide_eq_true rfl]

/-- No entry but the first of the protocol's exact name is needed: whenever some entry of that name in any case lists a
version from `v` on, that one does. -/
def FirstEntryTells (list : Text) (tp : ProtocolType) (v : Nat) : Prop :=
  ∀ protos, parseProtocolList list = some protos →
    ∀ entry ∈ protos, strcasecmp entry.name (protocolTypeToStr tp) = true → entry.ListsFrom v →
      ∃ first, findEntryByName protos (protocolTypeToStr tp) = some first ∧ first.ListsFrom v

/-- The two questions agree exactly where the first entry of the name tells. -/
theorem or_later_agrees_iff (list : Text) (tp : ProtocolType) (v : Nat) (_ : v ≤ 63) :
    (protocolListSupportsProtocolOrLater list tp v = true ↔
      ∃ w, v ≤ w ∧ w ≤ 63 ∧ protocolListSupportsProtocol list tp w = true) ↔ FirstEntryTells list tp v := by
  constructor
  · intro agree protos parsed entry mem named lists
    have later := agree.mp (orLater_iff.mpr ⟨protos, parsed, entry, mem, named, lists⟩)
    obtain ⟨_, first, same, found, firstLists⟩ := supports_later_iff.mp later
    obtain rfl := Option.some.inj (parsed.symm.trans same)
    exact ⟨first, found, firstLists⟩
  · intro tells
    refine ⟨fun later => ?_, orLater_of_supports⟩
    obtain ⟨protos, parsed, entry, mem, named, lists⟩ := orLater_iff.mp later
    obtain ⟨first, found, firstLists⟩ := tells protos parsed entry mem named lists
    exact supports_later_iff.mpr ⟨protos, first, parsed, found, firstLists⟩

theorem or_later_agrees_once : protocolListSupportsProtocolOrLater "Relay=1 Link=4-5".toList .link 4 = true ↔
    ∃ w, 4 ≤ w ∧ w ≤ 63 ∧ protocolListSupportsProtocol "Relay=1 Link=4-5".toList .link w = true := by
  refine (or_later_agrees_iff _ .link 4 (by decide)).mpr fun protos parsed entry mem named lists => ?_
  have known : parseProtocolList "Relay=1 Link=4-5".toList =
      some [⟨"Relay".toList, bit 1, by decide⟩, ⟨"Link".toList, bitmaskForRange 4 5, by decide⟩] := by decide
  obtain rfl := Option.some.inj (known.symm.trans parsed)
  exact ⟨⟨"Link".toList, bitmaskForRange 4 5, by decide⟩, by decide, 4, by decide, by decide, by decide⟩

/-- A second entry, or one whose name is written otherwise, is seen by one question only. -/
theorem later_entries_disagree :
    ¬ ∀ (list : Text) (tp : ProtocolType) (v : Nat), v ≤ 63 →
      (protocolListSupportsProtocolOrLater list tp v = true ↔
        ∃ w, v ≤ w ∧ w ≤ 63 ∧ protocolListSupportsProtocol list tp w = true) := by
  intro agree
  have later := (agree "Link=1 Link=5".toList .link 5 (by decide)).mp (by decide)
  have none : ∀ w ≤ 63, ¬ (5 ≤ w ∧ protocolListSupportsProtocol "Link=1 Link=5".toList .link w = true) := by decide
  obtain ⟨w, from_, small, supports⟩ := later
  exact none w small ⟨from_, supports⟩

end Queries
end TorJet.Protover
