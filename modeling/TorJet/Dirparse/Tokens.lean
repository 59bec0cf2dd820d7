import TorJet.Base.Checked
import TorJet.Encoding.Base64

/-!
# Scanning a document

The helpers of `lib/string/util_string.c` that the tokenizer of directory documents reads its bytes with. Places in a
document are counted from `start`; a helper fails that may read outside of the document.
-/

namespace TorJet.Dirparse
open Base
open Encoding.Binascii (bytesOf)

abbrev Bytes := List UInt8

inductive Fault
  | outside
  | assertion
  | index
  | overflow
  | unfinished
  deriving DecidableEq

abbrev Parse := Except (Stop Bytes Fault)

def torAssert (holds : Bool) : Parse Unit := if holds then .ok () else .error (.fault .assertion)

/-- The bytes from `a` up to `b`, all of which may be read. -/
def range (doc : Bytes) (a b : Nat) : Parse Bytes :=
  if a ≤ b ∧ b ≤ doc.length then .ok (part doc a b) else .error (.fault .outside)

def isSpace (c : UInt8) : Bool := c = 32 || c = 9 || c = 10 || c = 13

/-- `eat_whitespace`; what comes after a `#` is skipped up to the end of the line. -/
def eatWhitespace (s : Bytes) : Bytes := go false s
where
  go (comment : Bool) : Bytes → Bytes
    | [] => []
    | c :: s =>
        if comment ∧ c ≠ 0 ∧ c ≠ 10 then go true s
        else if isSpace c then go false s
        else if c = 35 then go true s
        else c :: s

def eatWhitespaceNoNl (s : Bytes) : Bytes := s.dropWhile fun c => c = 32 || c = 9 || c = 13

/-- `find_whitespace` stops at these bytes. -/
def endsWord (c : UInt8) : Bool := c = 0 || c = 35 || isSpace c

/-- What `find_whitespace` skips, and where it stops. -/
def findWhitespace (s : Bytes) : Bytes × Bytes := s.span fun c => !endsWord c

def eatWhitespaceEos (doc : Bytes) (s eos : Nat) : Parse Nat :=
  (range doc s eos).map fun r => eos - (eatWhitespace r).length

def eatWhitespaceEosNoNl (doc : Bytes) (s eos : Nat) : Parse Nat :=
  (range doc s eos).map fun r => eos - (eatWhitespaceNoNl r).length

def findWhitespaceEos (doc : Bytes) (s eos : Nat) : Parse Nat :=
  (range doc s eos).map fun r => eos - (findWhitespace r).2.length

/-- `memchr(s, c, eos - s)` -/
def memchr (doc : Bytes) (s : Nat) (c : UInt8) (eos : Nat) : Parse (Option Nat) :=
  (range doc s eos).map fun r => (r.idxOf? c).map (s + ·)

def memmem (needle : Bytes) : Bytes → Option Nat
  | [] => none
  | c :: s => if needle.isPrefixOf (c :: s) then some 0 else (memmem needle s).map (· + 1)

/-- `tor_memstr(s, eos - s, needle)` -/
def torMemstr (doc : Bytes) (s eos : Nat) (needle : Bytes) : Parse (Option Nat) :=
  (range doc s eos).map fun r => (memmem needle r).map (s + ·)

/-- `strcmpstart(s, start)` finds no difference. -/
def strcmpstart (doc : Bytes) (s : Nat) (start : Bytes) : Parse Bool :=
  (range doc s (s + start.length)).map (· == start)

/-- `STRNDUP(s, eol - s)` -/
def strndup (doc : Bytes) (s eol : Nat) : Parse Bytes := (range doc s eol).map fun r => r.takeWhile (· ≠ 0)

def memEqToken (doc : Bytes) (s memend : Nat) (token : Bytes) : Parse Bool := (range doc s memend).map (· == token)

/-! ## Where they stop -/

section Lists
variable {r : Bytes}

theorem eatWhitespace_go_suffix (comment : Bool) (s : Bytes) : eatWhitespace.go comment s <:+ s := by
  induction s generalizing comment with
  | nil => exact List.suffix_refl []
  | cons c s ih =>
      rw [eatWhitespace.go]
      split
      · exact (ih true).trans (List.suffix_cons c s)
      split
      · exact (ih false).trans (List.suffix_cons c s)
      split
      · exact (ih true).trans (List.suffix_cons c s)
      · exact List.suffix_refl _

theorem length_eatWhitespace_le (s : Bytes) : (eatWhitespace s).length ≤ s.length :=
  (eatWhitespace_go_suffix false s).length_le

theorem length_eatWhitespaceNoNl_le (s : Bytes) : (eatWhitespaceNoNl s).length ≤ s.length :=
  (List.dropWhile_suffix _).length_le

theorem length_findWhitespace_le (s : Bytes) : (findWhitespace s).2.length ≤ s.length := by
  rw [findWhitespace, List.span_eq_takeWhile_dropWhile]
  exact (List.dropWhile_suffix _).length_le

theorem eatWhitespace_space {c : UInt8} (space : isSpace c = true) (s : Bytes) :
    eatWhitespace (c :: s) = eatWhitespace s := by
  rw [eatWhitespace, eatWhitespace.go, if_neg (fun inside => Bool.false_ne_true inside.1), if_pos space]
  rfl

theorem eatWhitespace_go_head (comment : Bool) (s : Bytes) :
    ∀ c ∈ (eatWhitespace.go comment s).head?, isSpace c = false := by
  induction s generalizing comment with
  | nil => exact fun _ none => (Option.not_mem_none _ none).elim
  | cons c s ih =>
      rw [eatWhitespace.go]
      split
      · exact ih true
      split
      · exact ih false
      rename_i black
      split
      · exact ih true
      · intro d head
        obtain rfl := Option.some.inj head
        exact Bool.eq_false_iff.mpr black

theorem memmem_lt {needle : Bytes} {k : Nat} (found : memmem needle r = some k) : k < r.length := by
  induction r generalizing k with
  | nil => cases found
  | cons c s ih =>
      rw [memmem] at found
      split at found
      · obtain rfl := Option.some.inj found
        exact Nat.succ_pos _
      · obtain ⟨j, later, rfl⟩ := Option.map_eq_some_iff.mp found
        exact Nat.succ_lt_succ (ih later)

end Lists

section Places
variable {doc : Bytes} {s eos : Nat}

theorem range_ok (order : s ≤ eos) (inside : eos ≤ doc.length) : range doc s eos = .ok (part doc s eos) :=
  if_pos ⟨order, inside⟩

theorem range_gives {α : Type} (f : Bytes → α) (order : s ≤ eos) (inside : eos ≤ doc.length) :
    (range doc s eos).map f = .ok (f (part doc s eos)) := by
  rw [range_ok order inside]
  rfl

theorem eatWhitespaceEos_gives (order : s ≤ eos) (inside : eos ≤ doc.length) :
    Gives (eatWhitespaceEos doc s eos) fun s' => s ≤ s' ∧ s' ≤ eos ∧ (s' < eos → doc[s']?.any isSpace = false) ∧
      (s < eos → doc[s]?.any isSpace = true → s < s') := by
  have size := length_part (a := s) inside
  obtain ⟨front, whole⟩ : eatWhitespace (part doc s eos) <:+ part doc s eos := eatWhitespace_go_suffix false _
  have lengths := congrArg List.length whole
  rw [List.length_append, size] at lengths
  have place : eos - (eatWhitespace (part doc s eos)).length = s + front.length := by omega
  refine ⟨_, range_gives _ order inside, by omega, Nat.sub_le _ _, ?_, ?_⟩
  · rw [place]
    intro low
    rw [← getElem?_part low, ← whole, List.getElem?_append_right (Nat.le_refl _), Nat.sub_self, ← List.head?_eq_getElem?,
      Option.any_eq_false]
    exact fun c head => Bool.not_eq_true _ ▸ eatWhitespace_go_head false _ c head
  · intro low space
    rw [← Nat.add_zero s, ← getElem?_part (by omega)] at space
    cases bytes : part doc s eos with
    | nil =>
        rw [bytes, List.length_nil] at size
        omega
    | cons c r =>
        rw [bytes] at space size
        rw [eatWhitespace_space space]
        have short := length_eatWhitespace_le r
        rw [List.length_cons] at size
        omega

theorem eatWhitespaceEosNoNl_gives (order : s ≤ eos) (inside : eos ≤ doc.length) :
    Gives (eatWhitespaceEosNoNl doc s eos) fun s' => s ≤ s' ∧ s' ≤ eos := by
  refine ⟨_, range_gives _ order inside, ?_, Nat.sub_le _ _⟩
  have short := length_eatWhitespaceNoNl_le (part doc s eos)
  rw [length_part inside] at short
  omega

theorem findWhitespaceEos_gives (order : s ≤ eos) (inside : eos ≤ doc.length) :
    Gives (findWhitespaceEos doc s eos) fun next => s ≤ next ∧ next ≤ eos := by
  refine ⟨_, range_gives _ order inside, ?_, Nat.sub_le _ _⟩
  have short := length_findWhitespace_le (part doc s eos)
  rw [length_part inside] at short
  omega

theorem memchr_gives {c : UInt8} (order : s ≤ eos) (inside : eos ≤ doc.length) :
    Gives (memchr doc s c eos) fun found => ∀ i ∈ found, s ≤ i ∧ i < eos ∧ doc[i]? = some c := by
  refine ⟨_, range_gives _ order inside, ?_⟩
  intro i mem
  obtain ⟨k, found, rfl⟩ := Option.map_eq_some_iff.mp mem
  obtain ⟨low, here, -⟩ := List.findIdx?_eq_some_iff_getElem.mp found
  have size := length_part (a := s) inside
  rw [size] at low
  refine ⟨Nat.le_add_right s k, by omega, ?_⟩
  have at_k : (part doc s eos)[k]? = some c :=
    (List.getElem?_eq_getElem (by omega)).trans (congrArg some (eq_of_beq here))
  exact (getElem?_part (by omega)).symm.trans at_k

theorem torMemstr_gives {needle : Bytes} (order : s ≤ eos) (inside : eos ≤ doc.length) :
    Gives (torMemstr doc s eos needle) fun found => ∀ next ∈ found, s ≤ next ∧ next < eos := by
  refine ⟨_, range_gives _ order inside, ?_⟩
  intro next mem
  obtain ⟨k, found, rfl⟩ := Option.map_eq_some_iff.mp mem
  have low := memmem_lt found
  rw [length_part inside] at low
  exact ⟨Nat.le_add_right s k, by omega⟩

end Places
end TorJet.Dirparse

/-!
## Tokens and their rules

The keywords, rules and tokens of `parsecommon.h`, and the checks that a rule makes of its token.
-/

namespace TorJet.Dirparse
open Base
open Encoding.Binascii (bytesOf)

/-- `directory_keyword`, in its order. -/
inductive DirectoryKeyword
  | kAccept | kAccept6 | kDirectorySignature | kRecommendedSoftware | kReject | kReject6 | kRouter | kSignedDirectory
  | kSigningKey | kOnionKey | kOnionKeyNtor | kRouterSignature | kPublished | kRunningRouters | kRouterStatus
  | kPlatform | kProto | kOpt | kBandwidth | kContact | kNetworkStatus | kUptime | kDirSigningKey | kFamily
  | kFamilyCert | kFamilyIds | kFingerprint | kHibernating | kReadHistory | kWriteHistory | kNetworkStatusVersion
  | kDirSource | kDirOptions | kClientVersions | kServerVersions | kRecommendedClientProtocols
  | kRecommendedRelayProtocols | kRequiredClientProtocols | kRequiredRelayProtocols | kOrAddress | kId | kP | kP6
  | kR | kA | kS | kV | kW | kM | kExtraInfo | kExtraInfoDigest | kCachesExtraInfo | kHiddenServiceDir
  | kAllowSingleHopExits | kIpv6Policy | kRouterSigEd25519 | kIdentityEd25519 | kMasterKeyEd25519
  | kOnionKeyCrosscert | kNtorOnionKeyCrosscert | kDirreqEnd | kDirreqV2Ips | kDirreqV3Ips | kDirreqV2Reqs
  | kDirreqV3Reqs | kDirreqV2Share | kDirreqV3Share | kDirreqV2Resp | kDirreqV3Resp | kDirreqV2Dir | kDirreqV3Dir
  | kDirreqV2Tun | kDirreqV3Tun | kEntryEnd | kEntryIps | kCellEnd | kCellProcessed | kCellQueued | kCellTime
  | kCellCircs | kExitEnd | kExitWritten | kExitRead | kExitOpened | kDirKeyCertificateVersion | kDirIdentityKey
  | kDirKeyPublished | kDirKeyExpires | kDirKeyCertification | kDirKeyCrosscert | kDirAddress | kDirTunnelled
  | kVoteStatus | kValidAfter | kFreshUntil | kValidUntil | kVotingDelay | kKnownFlags | kParams | kBwWeights
  | kVoteDigest | kConsensusDigest | kAdditionalDigest | kAdditionalSignature | kConsensusMethods | kConsensusMethod
  | kLegacyDirKey | kDirectoryFooter | kSigningCertEd | kSrFlag | kCommit | kPreviousSrv | kCurrentSrv | kPackage
  | aPurpose | aLastListed | aUnknown | rRendezvousServiceDescriptor | rVersion | rPermanentKey | rSecretIdPart
  | rPublicationTime | rProtocolVersions | rIntroductionPoints | rSignature | rHsDescriptor | r3DescLifetime
  | r3DescSigningCert | r3RevisionCounter | r3Superencrypted | r3Signature | r3Create2Formats | r3IntroAuthRequired
  | r3SingleOnionService | r3IntroductionPoint | r3IntroOnionKey | r3IntroAuthKey | r3IntroEncKey | r3IntroEncKeyCert
  | r3IntroLegacyKey | r3IntroLegacyKeyCert | r3DescAuthType | r3DescAuthKey | r3DescAuthClient | r3Encrypted
  | r3FlowControl | r3PowParams | rIpoIdentifier | rIpoIpAddress | rIpoOnionPort | rIpoOnionKey | rIpoServiceKey
  | cClientName | cDescriptorCookie | cClientKey | err | eof | nil
  deriving DecidableEq

/-- From `MIN_ANNOTATION` to `MAX_ANNOTATION`. -/
def isAnnotation (tp : DirectoryKeyword) : Bool :=
  DirectoryKeyword.aPurpose.ctorIdx ≤ tp.ctorIdx && tp.ctorIdx ≤ DirectoryKeyword.aUnknown.ctorIdx

inductive ObjSyntax
  | noObj
  | needObj
  | optKey1024
  | needKey1024
  | needKey
  | objOk
  deriving DecidableEq

/-- `token_rule_t`; its flags `pos` are `atStart` and `atEnd`. -/
structure TokenRule where
  t : Bytes
  v : DirectoryKeyword
  minArgs : Int
  maxArgs : Int
  concatArgs : Bool
  os : ObjSyntax
  minCnt : Int
  maxCnt : Int
  atStart : Bool
  atEnd : Bool
  deriving DecidableEq

/-- `directory_token_t`; a token of the type `ERR_` is the text of its error alone. -/
structure DirectoryToken (κ : Type) where
  tp : DirectoryKeyword
  args : List Bytes
  objectType : Option Bytes
  objectBody : Option Bytes
  key : Option κ
  deriving DecidableEq

structure CryptoPk (κ : Type) where
  asn1Decode : Bytes → Option κ
  numBits : κ → Int
  keyIsPrivate : κ → Bool

def MAX_ARGS : Nat := 512
def MAX_UNPARSED_OBJECT_SIZE : Nat := 128 * 1024
def MAX_LINE_LENGTH : Nat := 128 * 1024
def PK_BYTES : Nat := 128

def retErr {α : Type} (msg : Bytes) : Parse α := .error (.refused msg)

/-- `RET_ERR` with what `tor_snprintf` leaves in `ebuf`. -/
def retErrOf {α : Type} (msg : Bytes) : Parse α := retErr (msg.take 127)

section Rules
variable {κ : Type} (pk : CryptoPk κ)

/-- `get_token_arguments` on its copy of the line, with the number of arguments that there is still room for. -/
def getTokenArguments : Nat → Bytes → Option (List Bytes)
  | _, [] => some []
  | 0, _ :: _ => none
  | room + 1, cp =>
      let arg := (findWhitespace cp).1
      match (findWhitespace cp).2 with
      | [] => some [arg]
      | _ :: cp => (getTokenArguments room (eatWhitespace cp)).map (arg :: ·)

/-- The cases of `token_check_object` from `NEED_KEY` on. -/
def checkNeedKey (kwd : Bytes) (tok : DirectoryToken κ) : Parse (DirectoryToken κ) :=
  match tok.key with
  | none => retErrOf (bytesOf "Missing public key for " ++ kwd)
  | some key =>
      if pk.keyIsPrivate key then
        retErrOf (bytesOf "Private key given for " ++ kwd ++ bytesOf ", which wants a public key")
      else .ok tok

/-- The cases from `NEED_KEY_1024` on. -/
def checkNeedKey1024 (kwd : Bytes) (tok : DirectoryToken κ) : Parse (DirectoryToken κ) :=
  match tok.key with
  | some key =>
      if pk.numBits key ≠ PK_BYTES * 8 then
        retErrOf (bytesOf "Wrong size on key for " ++ kwd ++ bytesOf ": " ++ bytesOf (toString (pk.numBits key)) ++
          bytesOf " bits")
      else checkNeedKey pk kwd tok
  | none => checkNeedKey pk kwd tok

def tokenCheckObject (kwd : Bytes) (tok : DirectoryToken κ) : ObjSyntax → Parse (DirectoryToken κ)
  | .noObj =>
      if tok.objectBody.isSome then retErrOf (bytesOf "Unexpected object for " ++ kwd)
      else if tok.key.isSome then retErrOf (bytesOf "Unexpected public key for " ++ kwd)
      else .ok tok
  | .needObj => if tok.objectBody.isNone then retErrOf (bytesOf "Missing object for " ++ kwd) else .ok tok
  | .optKey1024 =>
      if tok.objectBody.isSome && tok.key.isNone then retErrOf (bytesOf "Unexpected object for " ++ kwd)
      else if tok.key.isNone then .ok tok
      else checkNeedKey1024 pk kwd tok
  | .needKey1024 => checkNeedKey1024 pk kwd tok
  | .needKey => checkNeedKey pk kwd tok
  | .objOk => .ok tok

/-! ## What a rule says of a token -/

def ObjSyntax.Allows (tok : DirectoryToken κ) : ObjSyntax → Prop
  | .noObj => tok.objectBody = none ∧ tok.key = none
  | .needObj => tok.objectBody ≠ none ∧ tok.key = none
  | .optKey1024 => tok.objectBody = none ∧ tok.key = none ∨
      ∃ key, tok.key = some key ∧ pk.numBits key = PK_BYTES * 8 ∧ pk.keyIsPrivate key = false
  | .needKey1024 => ∃ key, tok.key = some key ∧ pk.numBits key = PK_BYTES * 8 ∧ pk.keyIsPrivate key = false
  | .needKey => ∃ key, tok.key = some key ∧ pk.keyIsPrivate key = false
  | .objOk => True

variable {pk}

theorem checkNeedKey_safe (kwd : Bytes) (tok : DirectoryToken κ) :
    Safe (checkNeedKey pk kwd tok) fun out => out = tok ∧ ObjSyntax.Allows pk tok .needKey := by
  rw [checkNeedKey]
  split
  · exact Safe.refused _
  · rename_i key isKey
    refine Safe.ite (fun _ => Safe.refused _) fun isPublic => Safe.ok ⟨rfl, key, isKey, ?_⟩
    exact Bool.eq_false_iff.mpr isPublic

theorem checkNeedKey1024_safe (kwd : Bytes) (tok : DirectoryToken κ) :
    Safe (checkNeedKey1024 pk kwd tok) fun out => out = tok ∧ ObjSyntax.Allows pk tok .needKey1024 := by
  rw [checkNeedKey1024]
  split
  · rename_i key isKey
    refine Safe.ite (fun _ => Safe.refused _) fun size => (checkNeedKey_safe kwd tok).mono ?_
    rintro out ⟨same, key', isKey', isPublic⟩
    obtain rfl := Option.some.inj (isKey.symm.trans isKey')
    exact ⟨same, key, isKey, not_not.mp size, isPublic⟩
  · rename_i noKey
    refine (checkNeedKey_safe kwd tok).mono ?_
    rintro out ⟨-, key, isKey, -⟩
    rw [noKey] at isKey
    cases isKey

theorem tokenCheckObject_safe (kwd : Bytes) (tok : DirectoryToken κ) (os : ObjSyntax)
    (keyed : tok.key ≠ none → os ≠ .needObj) :
    Safe (tokenCheckObject pk kwd tok os) fun out => out = tok ∧ os.Allows pk tok := by
  cases os with
  | noObj =>
      refine Safe.ite (fun _ => Safe.refused _) fun noBody => Safe.ite (fun _ => Safe.refused _) fun noKey => ?_
      exact Safe.ok ⟨rfl, Option.not_isSome_iff_eq_none.mp noBody, Option.not_isSome_iff_eq_none.mp noKey⟩
  | needObj =>
      refine Safe.ite (fun _ => Safe.refused _) fun body => Safe.ok ⟨rfl, ?_, ?_⟩
      · exact fun none => body (Option.isNone_iff_eq_none.mpr none)
      · exact not_not.mp fun some => keyed some rfl
  | optKey1024 =>
      refine Safe.ite (fun _ => Safe.refused _) fun together => Safe.ite (fun noKey => ?_) fun _ => ?_
      · have none := Option.isNone_iff_eq_none.mp noKey
        refine Safe.ok ⟨rfl, .inl ⟨?_, none⟩⟩
        rw [noKey, Bool.and_true] at together
        exact Option.not_isSome_iff_eq_none.mp together
      · exact (checkNeedKey1024_safe kwd tok).mono fun out passed => ⟨passed.1, .inr passed.2⟩
  | needKey1024 => exact checkNeedKey1024_safe kwd tok
  | needKey => exact checkNeedKey_safe kwd tok
  | objOk => exact Safe.ok ⟨rfl, trivial⟩

end Rules
end TorJet.Dirparse
