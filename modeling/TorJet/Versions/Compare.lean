import Mathlib.Algebra.Group.Int.Defs
import TorJet.Base.Compare
import TorJet.Net.CString

/-!
# Versions

Tor versions as they are parsed and compared, and lists of them as they are sorted.
-/

namespace TorJet.Versions
open Base Net

def INT32_MAX : Nat := 2 ^ 31 - 1

def MAX_STATUS_TAG_LEN : Nat := 32

def HEX_DIGEST_LEN : Nat := 40

/-- An `int` that was parsed with bounds. -/
abbrev Number := Fin (2 ^ 31)

inductive Status
  | pre | rc | release
  deriving DecidableEq, Repr

def Status.code : Status → Number
  | .pre => 0
  | .rc => 1
  | .release => 2

/-- `tor_version_t`; `svn_revision` may be any `int`. -/
structure TorVersion where
  major : Number := 0
  minor : Number := 0
  micro : Number := 0
  status : Status := .release
  patchlevel : Number := 0
  statusTag : Text := []
  svnRevision : BitVec 32 := 0
  gitTag : Text := []
  deriving DecidableEq

def TorVersion.gitTagLen (v : TorVersion) : Nat := v.gitTag.length

/-! Parsing. -/

def number (cp : Text) : Option (Number × Text) :=
  if cp.head?.any torIsdigit then
    match torParseUint64 cp 0 INT32_MAX with
    | (some n, eos) => if fits : n < 2 ^ 31 then if eos = cp then none else some (⟨n, fits⟩, eos) else none
    | (none, _) => none
  else none

def dot (cp : Text) : Option Text :=
  match cp with
  | c :: cp => if c = '.' then some cp else none
  | [] => none

def eatWhitespace (s : Text) : Text := go false s
where
  go (comment : Bool) : Text → Text
    | [] => []
    | c :: s =>
        if comment then go (c ≠ '\n') s
        else if c = ' ' ∨ c = '\t' ∨ c = '\n' ∨ c = '\r' then go false s
        else if c = '#' then go true s
        else c :: s

/-- `(int) strtol`, where a `long` has `longBits` bits. -/
def strtolInt (longBits : Nat) (s : Text) : BitVec 32 :=
  match strtolDecimal s with
  | none => 0
  | some (negative, n, _) =>
      let value : Int := if negative then -n else n
      BitVec.ofInt 32 (max (-2 ^ (longBits - 1)) (min value (2 ^ (longBits - 1) - 1)))

def base16Decode (hex : Text) : Option Text :=
  match hex with
  | [] => some []
  | [_] => none
  | hi :: lo :: rest =>
      if torIsxdigit hi && torIsxdigit lo then
        (base16Decode rest).map (Char.ofNat (hexDecodeDigit hi * 16 + hexDecodeDigit lo) :: ·)
      else none

/-- From the label `status_tag` on. -/
def parseStatusTag (longBits : Nat) (out : TorVersion) (cp : Text) : Option TorVersion :=
  let cp := if cp.head? = some '-' ∨ cp.head? = some '.' then cp.tail else cp
  let (tag, eos) := findWhitespace cp
  let out := { out with statusTag := if MAX_STATUS_TAG_LEN ≤ tag.length then cp.take (MAX_STATUS_TAG_LEN - 1) else tag }
  let cp := eatWhitespace eos
  if strcmpstart cp "(r".toList then some { out with svnRevision := strtolInt longBits (cp.drop 2) }
  else if strcmpstart cp "(git-".toList then
    if ')' ∈ cp then
      let hex := (cp.takeWhile (· ≠ ')')).drop 5
      if HEX_DIGEST_LEN < hex.length ∨ hex.length = 0 ∨ hex.length % 2 = 1 then none
      else (base16Decode hex).map fun digest => { out with gitTag := digest }
    else none
  else some out

def parsePatchlevel (longBits : Nat) (out : TorVersion) (cp : Text) : Option TorVersion :=
  (number cp).bind fun (patchlevel, cp) => parseStatusTag longBits { out with patchlevel } cp

def torVersionParse (longBits : Nat) (s : Text) : Option TorVersion := do
  let cp := if strcasecmpstart s "Tor ".toList then s.drop 4 else s
  let (major, cp) ← number cp
  let cp ← dot cp
  let (minor, cp) ← number cp
  let out : TorVersion := { major, minor }
  if cp = [] then return out
  else if cp.head? = some '-' then parseStatusTag longBits out cp
  else
    let cp ← dot cp
    let (micro, cp) ← number cp
    let out := { out with micro }
    if cp = [] then return out
    else if cp.head? = some '.' then parsePatchlevel longBits out cp.tail
    else if cp.head? = some '-' then parseStatusTag longBits out cp
    else if strcmpstart cp "pre".toList then parsePatchlevel longBits { out with status := .pre } (cp.drop 3)
    else if strcmpstart cp "rc".toList then parsePatchlevel longBits { out with status := .rc } (cp.drop 2)
    else none

/-! Comparing. -/

/-- `CMP`: the difference of two `unsigned` read as an `int`. -/
def cmpField (aval bval : BitVec 32) : Int :=
  let result := (aval - bval).toInt
  if result < 0 then -1 else if 0 < result then 1 else 0

def cmpNumber (a b : Nat) : Int := cmpField (BitVec.ofNat 32 a) (BitVec.ofNat 32 b)

/-- `fast_memcmp`, of as many bytes as both have. -/
def fastMemcmp (a b : Text) : Int := strcmp a b

def torVersionCompare (a b : TorVersion) : Int :=
  thenCompare (cmpNumber a.major b.major) <|
  thenCompare (cmpNumber a.minor b.minor) <|
  thenCompare (cmpNumber a.micro b.micro) <|
  thenCompare (cmpNumber a.status.code b.status.code) <|
  thenCompare (cmpNumber a.patchlevel b.patchlevel) <|
  thenCompare (strcmp a.statusTag b.statusTag) <|
  thenCompare (cmpField a.svnRevision b.svnRevision) <|
  thenCompare (cmpNumber a.gitTagLen b.gitTagLen) <|
  if a.gitTagLen ≠ 0 then fastMemcmp a.gitTag b.gitTag else 0

def compareTorVersionStr (longBits : Nat) (a b : Text) : Int :=
  match torVersionParse longBits a, torVersionParse longBits b with
  | some va, some vb => torVersionCompare va vb
  | some _, none => -1
  | none, some _ => 1
  | none, none => strcmp a b

def sortVersionList (longBits : Nat) (qsort : Qsort (compareTorVersionStr longBits)) (versions : List Text)
    (removeDuplicates : Bool) : List Text :=
  let sorted := qsort.run versions
  if removeDuplicates then uniq (compareTorVersionStr longBits) sorted else sorted

end TorJet.Versions

/-!
## The order of versions

Versions are in order where the revisions of one release are less than half of their range apart.
-/

namespace TorJet.Versions
open Base Net

/-! ## Fields -/

section Fields
variable {x y : BitVec 32} {a b : Nat}

theorem cmpField_toInt (x y : BitVec 32) :
    (cmpField x y < 0 ↔ (x - y).toInt < 0) ∧ (0 < cmpField x y ↔ 0 < (x - y).toInt) := by
  simp only [cmpField]
  split
  · omega
  · split <;> omega

theorem cmpField_neg : cmpField x y < 0 ↔ 2 ^ 31 ≤ (x - y).toNat := by
  have range := (x - y).isLt
  rw [(cmpField_toInt x y).1, BitVec.toInt_eq_toNat_cond]
  split <;> omega

theorem cmpField_pos : 0 < cmpField x y ↔ 0 < (x - y).toNat ∧ (x - y).toNat < 2 ^ 31 := by
  have range := (x - y).isLt
  rw [(cmpField_toInt x y).2, BitVec.toInt_eq_toNat_cond]
  split <;> omega

theorem cmpField_sign (base : BitVec 32) (fitsX : (x - base).toNat < 2 ^ 31) (fitsY : (y - base).toNat < 2 ^ 31) :
    (cmpField x y < 0 ↔ ((x - base).toNat : Int) < (y - base).toNat) ∧
      (0 < cmpField x y ↔ ((y - base).toNat : Int) < (x - base).toNat) := by
  rw [cmpField_neg, cmpField_pos]
  rw [BitVec.toNat_sub] at fitsX fitsY ⊢
  have inX := x.isLt
  have inY := y.isLt
  have inBase := base.isLt
  rw [BitVec.toNat_sub, BitVec.toNat_sub]
  omega

theorem cmpNumber_sign (inA : a < 2 ^ 31) (inB : b < 2 ^ 31) :
    (cmpNumber a b < 0 ↔ (a : Int) < b) ∧ (0 < cmpNumber a b ↔ (b : Int) < a) := by
  have natA : (BitVec.ofNat 32 a - 0).toNat = a := by
    rw [BitVec.ofNat_eq_ofNat, BitVec.sub_zero, BitVec.toNat_ofNat, Nat.mod_eq_of_lt (by omega)]
  have natB : (BitVec.ofNat 32 b - 0).toNat = b := by
    rw [BitVec.ofNat_eq_ofNat, BitVec.sub_zero, BitVec.toNat_ofNat, Nat.mod_eq_of_lt (by omega)]
  have sign := cmpField_sign (x := BitVec.ofNat 32 a) (y := BitVec.ofNat 32 b) 0
  rw [natA, natB] at sign
  exact sign inA inB

theorem cmpNumber_eq_zero (inA : a < 2 ^ 31) (inB : b < 2 ^ 31) : cmpNumber a b = 0 ↔ a = b := by
  have sign := cmpNumber_sign inA inB
  omega

theorem cmpNumber_orders {α : Type} {S : α → Prop} (field : α → Nat) (bound : ∀ a, S a → field a < 2 ^ 31) :
    Orders S fun a b => cmpNumber (field a) (field b) :=
  .of_key (fun a => field a) fun a b inA inB => cmpNumber_sign (bound a inA) (bound b inB)

theorem strcmp_orders (S : Text → Prop) : Orders S strcmp where
  swap a b _ _ := by
    rw [strcmp_swap a b]
    omega
  trans _ _ _ _ _ _ := strcmp_trans

def HalfCircle (revisions : List (BitVec 32)) : Prop := ∃ x ∈ revisions, ∀ y ∈ revisions, (y - x).toNat < 2 ^ 31

theorem HalfCircle.orders {revisions : List (BitVec 32)} (half : HalfCircle revisions) :
    Orders (· ∈ revisions) cmpField := by
  obtain ⟨base, -, fits⟩ := half
  exact .of_key (fun x => (x - base).toNat) fun x y inX inY => cmpField_sign base (fits x inX) (fits y inY)

end Fields

/-! ## Versions -/

section Versions
variable {a b c : TorVersion}

structure SameRelease (a b : TorVersion) : Prop where
  major : a.major = b.major
  minor : a.minor = b.minor
  micro : a.micro = b.micro
  status : a.status = b.status
  patchlevel : a.patchlevel = b.patchlevel
  statusTag : a.statusTag = b.statusTag

def compareRelease (a b : TorVersion) : Int :=
  thenCompare (cmpNumber a.major b.major) <|
  thenCompare (cmpNumber a.minor b.minor) <|
  thenCompare (cmpNumber a.micro b.micro) <|
  thenCompare (cmpNumber a.status.code b.status.code) <|
  thenCompare (cmpNumber a.patchlevel b.patchlevel) <| strcmp a.statusTag b.statusTag

def compareGitTag (a b : TorVersion) : Int :=
  thenCompare (cmpNumber a.gitTagLen b.gitTagLen) (if a.gitTagLen ≠ 0 then fastMemcmp a.gitTag b.gitTag else 0)

def compareRevision (a b : TorVersion) : Int := thenCompare (cmpField a.svnRevision b.svnRevision) (compareGitTag a b)

theorem torVersionCompare_eq (a b : TorVersion) :
    torVersionCompare a b = thenCompare (compareRelease a b) (compareRevision a b) := by
  simp only [torVersionCompare, compareRelease, compareRevision, compareGitTag, thenCompare_assoc]

theorem compareRelease_orders : Orders (fun _ => True) compareRelease := by
  have tag := (strcmp_orders fun _ => True).comap TorVersion.statusTag
  have patchlevel := (cmpNumber_orders (fun v : TorVersion => v.patchlevel.val) fun v _ => v.patchlevel.isLt).andThen tag
  have status := (cmpNumber_orders (fun v : TorVersion => v.status.code.val) fun v _ => v.status.code.isLt).andThen
    patchlevel
  have micro := (cmpNumber_orders (fun v : TorVersion => v.micro.val) fun v _ => v.micro.isLt).andThen status
  have minor := (cmpNumber_orders (fun v : TorVersion => v.minor.val) fun v _ => v.minor.isLt).andThen micro
  exact (cmpNumber_orders (fun v : TorVersion => v.major.val) fun v _ => v.major.isLt).andThen minor

theorem thenCompare_eq_zero {i j : Int} : thenCompare i j = 0 ↔ i = 0 ∧ j = 0 := by
  by_cases first : i = 0
  · simp [first]
  · simp [thenCompare_of_ne first, first]

theorem Status.code_injective : Function.Injective Status.code := by
  intro a b
  cases a <;> cases b <;> simp [Status.code]

theorem cmpNumber_fin {m n : Number} : cmpNumber m n = 0 ↔ m = n := by
  rw [cmpNumber_eq_zero m.isLt n.isLt, Fin.ext_iff]

theorem compareRelease_eq_zero : compareRelease a b = 0 ↔ SameRelease a b := by
  simp only [compareRelease, thenCompare_eq_zero, cmpNumber_fin, strcmp_eq_zero]
  constructor
  · rintro ⟨major, minor, micro, status, patchlevel, tag⟩
    exact ⟨major, minor, micro, Status.code_injective status, patchlevel, tag⟩
  · rintro ⟨major, minor, micro, status, patchlevel, tag⟩
    exact ⟨major, minor, micro, congrArg _ status, patchlevel, tag⟩

def TorVersion.Short (v : TorVersion) : Prop := v.gitTagLen < 2 ^ 31

theorem compareGitTag_orders : Orders TorVersion.Short compareGitTag := by
  have lengths : Orders TorVersion.Short fun a b => cmpNumber a.gitTagLen b.gitTagLen :=
    cmpNumber_orders TorVersion.gitTagLen fun _ short => short
  have tags : Orders TorVersion.Short fun a b => strcmp a.gitTag b.gitTag :=
    (strcmp_orders fun _ => True).comap TorVersion.gitTag |>.mono fun _ _ => trivial
  -- with an empty tag there is nothing to compare
  have same (a b : TorVersion) (inA : a.Short) (inB : b.Short) (equal : cmpNumber a.gitTagLen b.gitTagLen = 0) :
      (if a.gitTagLen ≠ 0 then fastMemcmp a.gitTag b.gitTag else 0) = strcmp a.gitTag b.gitTag := by
    have len := (cmpNumber_eq_zero inA inB).mp equal
    split
    · rfl
    · rename_i empty
      rw [not_not] at empty
      rw [List.eq_nil_of_length_eq_zero empty, List.eq_nil_of_length_eq_zero (len.symm.trans empty)]
      rfl
  refine lengths.lex (fun a b inA inB equal => ?_) fun a b c inA inB inC equal equal' => ?_
  · rw [same a b inA inB equal, same b a inB inA ((lengths.zero_comm inA inB).mp equal)]
    exact tags.swap a b inA inB
  · rw [same a b inA inB equal, same b c inB inC equal', same a c inA inC (lengths.zero_trans inA inB inC equal equal')]
    exact tags.trans a b c inA inB inC

theorem compareRevision_orders {l : List TorVersion} (half : HalfCircle (l.map TorVersion.svnRevision))
    (short : ∀ v ∈ l, v.Short) : Orders (· ∈ l) compareRevision := by
  have revisions : Orders (· ∈ l) fun a b => cmpField a.svnRevision b.svnRevision :=
    (half.orders.comap TorVersion.svnRevision).mono fun _ => List.mem_map_of_mem
  exact revisions.andThen (compareGitTag_orders.mono short)

end Versions

/-! ## Sets of versions -/

def RevisionsClose (S : TorVersion → Prop) : Prop :=
  ∀ a b c, S a → S b → S c → SameRelease a b → SameRelease b c →
    HalfCircle [a.svnRevision, b.svnRevision, c.svnRevision]

section Sets
variable {S : TorVersion → Prop} {a b c : TorVersion}

theorem SameRelease.symm (ab : SameRelease a b) : SameRelease b a :=
  ⟨ab.major.symm, ab.minor.symm, ab.micro.symm, ab.status.symm, ab.patchlevel.symm, ab.statusTag.symm⟩

theorem SameRelease.trans (ab : SameRelease a b) (bc : SameRelease b c) : SameRelease a c where
  major := ab.major.trans bc.major
  minor := ab.minor.trans bc.minor
  micro := ab.micro.trans bc.micro
  status := ab.status.trans bc.status
  patchlevel := ab.patchlevel.trans bc.patchlevel
  statusTag := ab.statusTag.trans bc.statusTag

theorem torVersionCompare_of_same (same : SameRelease a b) : torVersionCompare a b = compareRevision a b := by
  rw [torVersionCompare_eq, compareRelease_eq_zero.mpr same, thenCompare_zero]

theorem orders_of_close (short : ∀ v, S v → v.Short) (close : RevisionsClose S) : Orders S torVersionCompare := by
  have three (a b c : TorVersion) (inA : S a) (inB : S b) (inC : S c) (ab : SameRelease a b) (bc : SameRelease b c) :
      Orders (· ∈ [a, b, c]) compareRevision :=
    compareRevision_orders (close a b c inA inB inC ab bc) (by simp [short a inA, short b inB, short c inC])
  have releases : Orders S compareRelease := compareRelease_orders.mono fun _ _ => trivial
  have lex : Orders S fun a b => thenCompare (compareRelease a b) (compareRevision a b) := releases.lex
    (fun a b inA inB equal => by
      have same := compareRelease_eq_zero.mp equal
      exact (three a b b inA inB inB same ⟨rfl, rfl, rfl, rfl, rfl, rfl⟩).swap a b (by simp) (by simp))
    fun a b c inA inB inC equal equal' => by
      have ab := compareRelease_eq_zero.mp equal
      have bc := compareRelease_eq_zero.mp equal'
      exact (three a b c inA inB inC ab bc).trans a b c (by simp) (by simp) (by simp)
  exact lex.congr fun a b _ _ => torVersionCompare_eq a b

theorem compareRevision_neg (less : cmpField a.svnRevision b.svnRevision < 0) : compareRevision a b < 0 := by
  rwa [compareRevision, thenCompare_of_ne less.ne]

theorem close_of_orders (orders : Orders S torVersionCompare) : RevisionsClose S := by
  intro a b c inA inB inC ab bc
  have here : ∀ v ∈ [a, b, c], S v ∧ SameRelease v b := by
    simp [inA, inB, inC, ab, bc.symm, (⟨rfl, rfl, rfl, rfl, rfl, rfl⟩ : SameRelease b b)]
  obtain ⟨m, mem, least⟩ := (orders.mono fun v there => (here v there).1).exists_least (List.cons_ne_nil _ _)
  refine ⟨m.svnRevision, List.mem_map_of_mem (f := TorVersion.svnRevision) mem, fun y inY => ?_⟩
  obtain ⟨v, there, rfl⟩ := List.mem_map.mp (show y ∈ [a, b, c].map TorVersion.svnRevision from inY)
  have mv : SameRelease m v := (here m mem).2.trans (here v there).2.symm
  by_contra far
  have le := least v there
  -- the other is before the least one as well
  have before : cmpField v.svnRevision m.svnRevision < 0 := cmpField_neg.mpr (not_lt.mp far)
  have less := compareRevision_neg before
  rw [← torVersionCompare_of_same mv.symm] at less
  have := (orders.swap m v (here m mem).1 (here v there).1).mp less
  omega

end Sets
end TorJet.Versions

/-!
## Sorted lists of versions

What the versions that are parsed from a list are sorted to.
-/

namespace TorJet.Versions
open Base Net

/-! ## Parsed versions -/

section Parsed
variable {longBits : Nat} {s cp hex digest : Text} {out v : TorVersion}

theorem base16Decode_length (decoded : base16Decode hex = some digest) : hex.length = 2 * digest.length := by
  induction hex using base16Decode.induct generalizing digest with
  | case1 =>
      obtain rfl := Option.some.inj decoded
      rfl
  | case2 c => cases decoded
  | case3 hi lo rest digits ih =>
      rw [base16Decode, if_pos digits] at decoded
      obtain ⟨tail, there, rfl⟩ := Option.map_eq_some_iff.mp decoded
      rw [List.length_cons, List.length_cons, ih there, List.length_cons]
      omega
  | case4 hi lo rest digits =>
      rw [base16Decode, if_neg digits] at decoded
      cases decoded

theorem parseStatusTag_short (parsed : parseStatusTag longBits out cp = some v) (short : out.gitTag = []) : v.Short := by
  have empty (w : TorVersion) (none : w.gitTag = []) : w.Short := by
    rw [TorVersion.Short, TorVersion.gitTagLen, none]
    decide
  simp only [parseStatusTag] at parsed
  generalize (if cp.head? = some '-' ∨ cp.head? = some '.' then cp.tail else cp) = cp at parsed
  split at parsed
  · obtain rfl := Option.some.inj parsed
    exact empty _ short
  · split at parsed
    · split at parsed
      · split at parsed
        · cases parsed
        · rename_i length
          obtain ⟨digest, decoded, rfl⟩ := Option.map_eq_some_iff.mp parsed
          have := base16Decode_length decoded
          rw [TorVersion.Short, TorVersion.gitTagLen]
          rw [HEX_DIGEST_LEN] at length
          dsimp only
          omega
      · cases parsed
    · obtain rfl := Option.some.inj parsed
      exact empty _ short

theorem parsePatchlevel_short (parsed : parsePatchlevel longBits out cp = some v) (short : out.gitTag = []) : v.Short := by
  obtain ⟨⟨patchlevel, rest⟩, -, parsed⟩ := Option.bind_eq_some_iff.mp parsed
  exact parseStatusTag_short parsed short

theorem torVersionParse_short (parsed : torVersionParse longBits s = some v) : v.Short := by
  simp only [torVersionParse, Option.bind_eq_bind] at parsed
  obtain ⟨⟨major, cp⟩, -, parsed⟩ := Option.bind_eq_some_iff.mp parsed
  obtain ⟨cp, -, parsed⟩ := Option.bind_eq_some_iff.mp parsed
  obtain ⟨⟨minor, cp⟩, -, parsed⟩ := Option.bind_eq_some_iff.mp parsed
  dsimp only at parsed
  split at parsed
  · obtain rfl := Option.some.inj parsed
    exact (by decide : (0 : Nat) < 2 ^ 31)
  · split at parsed
    · exact parseStatusTag_short parsed rfl
    · obtain ⟨cp, -, parsed⟩ := Option.bind_eq_some_iff.mp parsed
      obtain ⟨⟨micro, cp⟩, -, parsed⟩ := Option.bind_eq_some_iff.mp parsed
      dsimp only at parsed
      split at parsed
      · obtain rfl := Option.some.inj parsed
        exact (by decide : (0 : Nat) < 2 ^ 31)
      · split at parsed
        · exact parsePatchlevel_short parsed rfl
        · split at parsed
          · exact parseStatusTag_short parsed rfl
          · split at parsed
            · exact parsePatchlevel_short parsed rfl
            · split at parsed
              · exact parsePatchlevel_short parsed rfl
              · cases parsed

end Parsed

/-! ## Lists -/

def Accepted (longBits : Nat) (versions : List Text) (v : TorVersion) : Prop :=
  ∃ s ∈ versions, torVersionParse longBits s = some v

structure VersionsOrdered (longBits : Nat) (qsort : Qsort (compareTorVersionStr longBits)) (versions : List Text) :
    Prop where
  orders : Orders (Accepted longBits versions) torVersionCompare
  sorts : ∀ l ⊆ versions, (sortVersionList longBits qsort l false).Perm l ∧
    ∀ removeDuplicates, (sortVersionList longBits qsort l removeDuplicates).Pairwise fun a b =>
      compareTorVersionStr longBits a b ≤ 0
  agrees : ∀ l ⊆ versions, ∀ l' : List Text, l'.Perm l →
    List.Forall₂ (fun a b => compareTorVersionStr longBits a b = 0) (sortVersionList longBits qsort l true)
      (sortVersionList longBits qsort l' true)

section Lists
variable {longBits : Nat} {versions : List Text}

theorem compareTorVersionStr_orders (orders : Orders (Accepted longBits versions) torVersionCompare) :
    Orders (· ∈ versions) (compareTorVersionStr longBits) where
  swap a b inA inB := by
    simp only [compareTorVersionStr]
    cases parsedA : torVersionParse longBits a with
    | none =>
        cases torVersionParse longBits b with
        | none => exact (strcmp_orders fun _ => True).swap a b trivial trivial
        | some vb => simp
    | some va =>
        cases parsedB : torVersionParse longBits b with
        | none => simp
        | some vb => exact orders.swap va vb ⟨a, inA, parsedA⟩ ⟨b, inB, parsedB⟩
  trans a b c inA inB inC := by
    simp only [compareTorVersionStr]
    cases parsedA : torVersionParse longBits a with
    | none =>
        cases parsedB : torVersionParse longBits b with
        | none =>
            cases torVersionParse longBits c with
            | none => exact strcmp_trans
            | some vc => simp
        | some vb => simp
    | some va =>
        cases parsedC : torVersionParse longBits c with
        | none => simp
        | some vc =>
            cases parsedB : torVersionParse longBits b with
            | none => simp
            | some vb => exact orders.trans va vb vc ⟨a, inA, parsedA⟩ ⟨b, inB, parsedB⟩ ⟨c, inC, parsedC⟩

theorem sortVersionList_sorts {qsort : Qsort (compareTorVersionStr longBits)} {l : List Text}
    (orders : Orders (· ∈ l) (compareTorVersionStr longBits)) :
    (sortVersionList longBits qsort l false).Perm l ∧
      ∀ removeDuplicates, (sortVersionList longBits qsort l removeDuplicates).Pairwise fun a b =>
        compareTorVersionStr longBits a b ≤ 0 := by
  obtain ⟨perm, sorted⟩ := qsort.spec l orders
  refine ⟨perm, fun removeDuplicates => ?_⟩
  cases removeDuplicates with
  | false => exact sorted
  | true => exact sorted.sublist (uniq_sublist _)

theorem sortVersionList_agrees {qsort : Qsort (compareTorVersionStr longBits)} {l l' : List Text} (perm : l'.Perm l)
    (orders : Orders (· ∈ l) (compareTorVersionStr longBits)) :
    List.Forall₂ (fun a b => compareTorVersionStr longBits a b = 0) (sortVersionList longBits qsort l true)
      (sortVersionList longBits qsort l' true) := by
  obtain ⟨same, sorted⟩ := qsort.spec l orders
  obtain ⟨same', sorted'⟩ := qsort.spec l' (orders.mono fun _ => perm.mem_iff.mp)
  exact uniq_perm (orders.mono fun _ => same.mem_iff.mp) sorted sorted' (same'.trans (perm.trans same.symm))

/-- Versions are ordered, and their lists sorted, exactly where the revisions of one release are close. -/
theorem versions_ordered_iff (longBits : Nat) (qsort : Qsort (compareTorVersionStr longBits)) (versions : List Text) :
    VersionsOrdered longBits qsort versions ↔ RevisionsClose (Accepted longBits versions) := by
  constructor
  · intro ordered
    exact close_of_orders ordered.orders
  · intro close
    have orders : Orders (Accepted longBits versions) torVersionCompare := by
      refine orders_of_close ?_ close
      rintro v ⟨s, -, parsed⟩
      exact torVersionParse_short parsed
    have strings (l : List Text) (sub : l ⊆ versions) : Orders (· ∈ l) (compareTorVersionStr longBits) :=
      (compareTorVersionStr_orders orders).mono fun _ mem => sub mem
    exact {
      orders
      sorts := fun l sub => sortVersionList_sorts (strings l sub)
      agrees := fun l sub l' perm => sortVersionList_agrees perm (strings l sub) }

def cycle : List Text := ["0.1.2.3 (r0)".toList, "0.1.2.3 (r1610612736)".toList, "0.1.2.3 (r-1073741824)".toList]

theorem revisions_in_a_circle :
    ¬ ∀ (longBits : Nat) (versions : List Text), Orders (Accepted longBits versions) torVersionCompare := by
  intro all
  have orders := all 64 cycle
  have parsed (i : Fin 3) (v : TorVersion) (at_i : torVersionParse 64 (cycle.get i) = some v) : Accepted 64 cycle v :=
    ⟨_, List.get_mem _ _, at_i⟩
  have loop := orders.trans { patchlevel := 3, minor := 1, micro := 2 }
    { patchlevel := 3, minor := 1, micro := 2, svnRevision := 1610612736 }
    { patchlevel := 3, minor := 1, micro := 2, svnRevision := 3221225472 }
    (parsed 0 _ (by decide)) (parsed 1 _ (by decide)) (parsed 2 _ (by decide)) (by decide) (by decide)
  exact absurd loop (by decide)

end Lists
end TorJet.Versions
