import TorJet.Base.Checked
import TorJet.Base.Interned
import TorJet.Guardstate.Line
import TorJet.Policy.Order
import TorJet.Routersets.Entries
import TorJet.Routersets.Lookup

/-!
# Families of nodes

Family declarations as sorted arrays of fixed-size slots, of which there is one object for each family.
-/

namespace TorJet.Nodefamily
open Base Encoding Net
open Guardstate (isLegalNickname)
open Policy (torMemcmp)
open Routersets (isLegalHexdigest hexDigestNicknameDecode DIGEST_LEN HEX_DIGEST_LEN)

/-! ## Slots -/

def NODEFAMILY_MEMBER_LEN : Nat := 1 + DIGEST_LEN

def NODEFAMILY_BY_RSA_ID : UInt8 := 0

def NODEFAMILY_BY_NICKNAME : UInt8 := 1

def NF_REJECT_MALFORMED : BitVec 32 := 2

abbrev Slot := Buffer UInt8 NODEFAMILY_MEMBER_LEN

abbrev Id := Buffer UInt8 DIGEST_LEN

/-- What `memcpy` leaves of these bytes behind the type of a blank slot. -/
def fill (type : UInt8) (bytes : List UInt8) : Slot where
  cells := type :: (bytes ++ List.replicate DIGEST_LEN 0).take DIGEST_LEN
  size := by simp [NODEFAMILY_MEMBER_LEN, Nat.add_comm]

def blank : Slot := .filled NODEFAMILY_MEMBER_LEN 0

def bytesOf (s : Text) : List UInt8 := s.map fun c => UInt8.ofNat c.toNat

def compareMembers (a b : Slot) : Int := torMemcmp a.cells b.cells

/-! ## Members -/

/-- What `nodefamily_from_members` makes of a string. -/
inductive Member
  | good (slot : Slot)
  | malformed
  | unrecognized
  deriving DecidableEq

def readMember (cp : Text) : Member :=
  if isLegalNickname cp then .good (fill NODEFAMILY_BY_NICKNAME (bytesOf (cp.map Char.toLower)))
  else if isLegalHexdigest cp then
    match hexDigestNicknameDecode cp with
    | some (digest, _) => .good (fill NODEFAMILY_BY_RSA_ID digest)
    | none => .malformed
  else .unrecognized

/-- Where the loop of `nodefamily_from_members` is: the slots up to `ptr`, and what it could not read. -/
structure Filling where
  slots : List Slot
  nBadElements : Nat
  unrecognized : List Text

def Filling.add (f : Filling) (cp : Text) : Filling :=
  match readMember cp with
  | .good slot => { f with slots := f.slots ++ [slot] }
  | .malformed => { f with nBadElements := f.nBadElements + 1 }
  | .unrecognized => { f with nBadElements := f.nBadElements + 1, unrecognized := f.unrecognized ++ [cp] }

def fillMembers (members : List Text) : Filling := members.foldl Filling.add ⟨[], 0, []⟩

def removeDuplicates (i : Nat) (members : List Slot) : List Slot :=
  if more : i + 1 < members.length then
    if members[i] = members[i + 1] then removeDuplicates i (members.eraseIdx i) else removeDuplicates (i + 1) members
  else members
termination_by members.length - i
decreasing_by
  · rw [List.length_eraseIdx_of_lt (by omega)]
    omega
  · omega

/-! ## Families -/

inductive Fault
  | overflow
  | useAfterFree
  | assertion
  deriving DecidableEq

/-- The families that are allocated, and `the_node_families`; the count is `refcnt`, the content `family_members`. -/
abbrev Families := Interned 32 (List Slot)

def INT_MAX : Nat := 2 ^ 31 - 1

/-- The size that `nodefamily_alloc` computes is an `int`. -/
def nodefamilyAlloc (nMembers : Nat) : Except Fault (List Slot) :=
  if INT_MAX < nMembers * NODEFAMILY_MEMBER_LEN then .error .overflow else .ok (List.replicate nMembers blank)

section Code
variable (qsort : Qsort compareMembers) (sortStrings : Qsort strcmp)

/-- The members that `nodefamily_from_members` sorts: of the array, as many as there are good ones. -/
def sortedMembers (f : Filling) (rsaIdSelf : Option Id) (tmp : List Slot) : List Slot :=
  let written := f.slots ++ rsaIdSelf.toList.map fun id => fill NODEFAMILY_BY_RSA_ID id.cells
  qsort.run ((written ++ tmp.drop written.length).take (tmp.length - f.nBadElements))

/-- `nodefamily_from_members`: the family, the unrecognized members and the families there are then. -/
def nodefamilyFromMembers (families : Families) (members : List Text) (rsaIdSelf : Option Id) (flags : BitVec 32) :
    Except Fault (Option Nat × List Text × Families) := do
  let tmp ← nodefamilyAlloc (members.length + rsaIdSelf.toList.length)
  let f := fillMembers members
  if f.nBadElements ≠ 0 ∧ flags &&& NF_REJECT_MALFORMED ≠ 0 then return (none, f.unrecognized, families)
  let (family, families) := families.intern (removeDuplicates 0 (sortedMembers qsort f rsaIdSelf tmp))
  return (some family, f.unrecognized, families)

def nodefamilyFree (families : Families) (family : Option Nat) : Except Fault Families :=
  match family with
  | none => .ok families
  | some p =>
      match families.release p with
      | some families => .ok families
      | none => .error .useAfterFree

def nodefamilyParse (families : Families) (s : Text) (rsaIdSelf : Option Id) (flags : BitVec 32) :
    Except Fault (Option Nat × Families) := do
  let (family, _, families) ← nodefamilyFromMembers qsort families (splitSpace s) rsaIdSelf flags
  return (family, families)

def cString (bytes : List UInt8) : Text := (bytes.takeWhile (· ≠ 0)).map fun b => Char.ofNat b.toNat

/-- How `nodefamily_format` writes a member; one of another type is left out. -/
def formatMember (ptr : Slot) : Except Fault (List Text) :=
  if ptr.cells.head? = some NODEFAMILY_BY_NICKNAME then .ok [cString ptr.cells.tail]
  else if ptr.cells.head? = some NODEFAMILY_BY_RSA_ID then
    match Binascii.base16Encode (List.replicate (HEX_DIGEST_LEN + 1) 0) ptr.cells.tail with
    | .ok buf => .ok [('$' :: cString buf).map Char.toUpper]
    | .error _ => .error .assertion
  else .ok []

def nodefamilyFormat (families : Families) (family : Option Nat) : Except Fault Text :=
  match family with
  | none => .ok []
  | some p =>
      match families.heap p with
      | none => .error .useAfterFree
      | some nf => do
          let sl ← nf.content.mapM formatMember
          return [' '].intercalate sl.flatten

def nodefamilyCanonicalize (families : Families) (s : Text) (rsaIdSelf : Option Id) (flags : BitVec 32) :
    Except Fault (Text × Families) := do
  let (nf, unrecognized, families) ← nodefamilyFromMembers qsort families (splitSpace s) rsaIdSelf flags
  let formatted ← nodefamilyFormat families nf
  let resultMembers := sortStrings.run (unrecognized ++ splitSpace formatted)
  let families ← nodefamilyFree families nf
  return ([' '].intercalate resultMembers, families)

end Code
end TorJet.Nodefamily

/-!
## Slots of a family

What a member string is read as: how many spellings give one slot, and how a slot is written and read back.
-/

namespace TorJet.Nodefamily
open Base Encoding Net
open Guardstate (isLegalNickname ofNat_toNat hexPair_digit)
open Policy (number torMemcmp torMemcmp_sign torMemcmp_eq_zero)
open Routersets (isLegalHexdigest hexDigestNicknameDecode base16Digest skipDollar isLegalNickname_length
  isLegalHexdigest_length DIGEST_LEN HEX_DIGEST_LEN)

/-! ## Order -/

section Order
variable {a b : Slot} {slots slots' : List Slot}

theorem compareMembers_orders (S : Slot → Prop) : Orders S compareMembers := by
  refine .of_key (fun a => (number a.cells : Int)) fun a b _ _ => ?_
  have sign := torMemcmp_sign (a.size.trans b.size.symm)
  rw [compareMembers]
  omega

theorem compareMembers_eq_zero : compareMembers a b = 0 ↔ a = b := by
  rw [compareMembers, torMemcmp_eq_zero (a.size.trans b.size.symm)]
  exact ⟨Buffer.ext, fun same => same ▸ rfl⟩

theorem removeDuplicates_eq (front rest : List Slot) :
    removeDuplicates front.length (front ++ rest) = front ++ uniq compareMembers rest := by
  induction rest generalizing front with
  | nil =>
      rw [removeDuplicates, dif_neg (by simp)]
      rfl
  | cons a rest ih =>
      cases rest with
      | nil =>
          rw [removeDuplicates, dif_neg (by simp)]
          rfl
      | cons b rest =>
          have more : front.length + 1 < (front ++ a :: b :: rest).length := by simp
          have here : front.length < (front ++ a :: b :: rest).length := by simp
          have this : (front ++ a :: b :: rest)[front.length] = a := by simp
          have next : (front ++ a :: b :: rest)[front.length + 1] = b := by simp
          have erased : (front ++ a :: b :: rest).eraseIdx front.length = front ++ b :: rest := by
            rw [List.eraseIdx_append_of_length_le (Nat.le_refl _), Nat.sub_self]
            rfl
          rw [removeDuplicates, dif_pos more, this, next, erased]
          split
          · rename_i same
            rw [ih front, uniq, uniq, uniqAfter, if_pos (compareMembers_eq_zero.mpr same), same]
          · rename_i differs
            have rest := ih (front ++ [a])
            rw [List.length_append, List.length_singleton, List.append_assoc] at rest
            rw [uniq, uniqAfter, if_neg fun zero => differs (compareMembers_eq_zero.mp zero)]
            exact rest.trans (List.append_assoc ..)

variable (qsort : Qsort compareMembers)

def canonical (slots : List Slot) : List Slot := uniq compareMembers (qsort.run slots)

theorem canonical_sorted (slots : List Slot) : (canonical qsort slots).Pairwise fun a b => compareMembers a b < 0 :=
  uniq_strict (compareMembers_orders _) (qsort.spec slots (compareMembers_orders _)).2

theorem mem_canonical : a ∈ canonical qsort slots ↔ a ∈ slots := by
  have perm := (qsort.spec slots (compareMembers_orders _)).1
  refine ⟨fun mem => perm.mem_iff.mp ((uniq_sublist _).subset mem), fun mem => ?_⟩
  obtain ⟨b, kept, equal⟩ := exists_uniq (compareMembers_orders _) (perm.mem_iff.mpr mem)
  rw [compareMembers_eq_zero.mp equal]
  exact kept

theorem eq_of_sorted (sorted : slots.Pairwise fun a b => compareMembers a b < 0)
    (sorted' : slots'.Pairwise fun a b => compareMembers a b < 0) (same : ∀ a, a ∈ slots ↔ a ∈ slots') :
      slots = slots' := by
  have equal := forall₂_of_strict (compareMembers_orders fun _ => True) (fun _ _ => trivial) (fun _ _ => trivial) sorted sorted'
    (fun a mem => ⟨a, (same a).mp mem, compareMembers_eq_zero.mpr rfl⟩)
    (fun a mem => ⟨a, (same a).mpr mem, compareMembers_eq_zero.mpr rfl⟩)
  exact List.forall₂_eq_eq_eq ▸ equal.imp fun _ _ => compareMembers_eq_zero.mp

theorem canonical_congr (same : ∀ a, a ∈ slots ↔ a ∈ slots') : canonical qsort slots = canonical qsort slots' :=
  eq_of_sorted (canonical_sorted qsort slots) (canonical_sorted qsort slots') fun a => by
    rw [mem_canonical, mem_canonical, same]

end Order

/-! ## Digits -/

section Digits
variable {src src' : List UInt8} {hex hex' suffix s : Text}

theorem base16DecodeLoop_congr (same : src.map Binascii.hexDecodeDigit = src'.map Binascii.hexDecodeDigit)
    (dest : List UInt8) (pos : Nat) :
      Binascii.base16DecodeLoop src dest pos = Binascii.base16DecodeLoop src' dest pos := by
  induction src, dest, pos using Binascii.base16DecodeLoop.induct generalizing src' with
  | case1 dest pos =>
      rw [List.map_nil] at same
      rw [List.map_eq_nil_iff.mp same.symm]
  | case2 c dest pos =>
      obtain ⟨c', rfl, -⟩ := List.map_eq_singleton_iff.mp same.symm
      rfl
  | case3 c1 c2 src dest pos v1 v2 =>
      rename_i bad
      obtain ⟨c1', rest, rfl, eq1, same⟩ := List.map_eq_cons_iff.mp same.symm
      obtain ⟨c2', rest, rfl, eq2, same⟩ := List.map_eq_cons_iff.mp same
      rw [Binascii.base16DecodeLoop, Binascii.base16DecodeLoop, eq1, eq2]
      exact (if_pos bad).trans (if_pos bad).symm
  | case4 c1 c2 src dest pos v1 v2 =>
      rename_i good ih
      obtain ⟨c1', rest, rfl, eq1, same⟩ := List.map_eq_cons_iff.mp same.symm
      obtain ⟨c2', rest, rfl, eq2, same⟩ := List.map_eq_cons_iff.mp same
      rw [Binascii.base16DecodeLoop, Binascii.base16DecodeLoop, eq1, eq2]
      refine (if_neg good).trans (Eq.trans ?_ (if_neg good).symm)
      exact congrArg _ (funext fun dest => ih dest same.symm)

theorem base16Decode_congr (same : src.map Binascii.hexDecodeDigit = src'.map Binascii.hexDecodeDigit)
    (dest : List UInt8) :
    Binascii.base16Decode dest src = Binascii.base16Decode dest src' := by
  have length : src.length = src'.length := by simpa using congrArg List.length same
  rw [Binascii.base16Decode, Binascii.base16Decode, length, base16DecodeLoop_congr same]

theorem xdigit_lt {c : Char} (digit : torIsxdigit c = true) : c.toNat < 103 := by
  have le {a b : Char} (le : a ≤ b) : a.toNat ≤ b.toNat := le
  simp only [torIsxdigit, torIsdigit, Bool.or_eq_true, Bool.and_eq_true, decide_eq_true_eq] at digit
  obtain (⟨-, high⟩ | ⟨-, high⟩) | ⟨-, high⟩ := digit
  · exact Nat.lt_of_le_of_lt (le high) (by decide)
  · exact Nat.lt_of_le_of_lt (le high) (by decide)
  · exact Nat.lt_of_le_of_lt (le high) (by decide)

theorem digit_lower {c : Char} (digit : torIsxdigit c = true) :
    Binascii.hexDecodeDigit (UInt8.ofNat c.toLower.toNat) = Binascii.hexDecodeDigit (UInt8.ofNat c.toNat) ∧
      0 ≤ Binascii.hexDecodeDigit (UInt8.ofNat c.toNat) ∧ Binascii.hexDecodeDigit (UInt8.ofNat c.toNat) < 16 := by
  have all : ∀ n < 103, torIsxdigit (Char.ofNat n) = true →
      Binascii.hexDecodeDigit (UInt8.ofNat (Char.ofNat n).toLower.toNat) =
        Binascii.hexDecodeDigit (UInt8.ofNat (Char.ofNat n).toNat) ∧
      0 ≤ Binascii.hexDecodeDigit (UInt8.ofNat (Char.ofNat n).toNat) ∧
      Binascii.hexDecodeDigit (UInt8.ofNat (Char.ofNat n).toNat) < 16 := by decide
  have found := all c.toNat (xdigit_lt digit)
  rw [Char.ofNat_toNat] at found
  exact found digit

theorem digits_congr (digits : ∀ c ∈ hex, torIsxdigit c = true) (digits' : ∀ c ∈ hex', torIsxdigit c = true)
    (same : hex.map Char.toLower = hex'.map Char.toLower) :
    (bytesOf hex).map Binascii.hexDecodeDigit = (bytesOf hex').map Binascii.hexDecodeDigit := by
  have lower {hex : Text} (digits : ∀ c ∈ hex, torIsxdigit c = true) :
      (bytesOf hex).map Binascii.hexDecodeDigit = (bytesOf (hex.map Char.toLower)).map Binascii.hexDecodeDigit := by
    rw [bytesOf, bytesOf, List.map_map, List.map_map, List.map_map]
    exact List.map_congr_left fun c mem => (digit_lower (digits c mem)).1.symm
  rw [lower digits, lower digits', same]

theorem exists_bytes (n : Nat) (length : src.length = 2 * n)
    (valid : ∀ d ∈ src, 0 ≤ Binascii.hexDecodeDigit d ∧ Binascii.hexDecodeDigit d < 16) : ∃ bytes : List UInt8,
    bytes.length = n ∧ src.map Binascii.hexDecodeDigit =
      (bytes.flatMap Binascii.hexPair).map Binascii.hexDecodeDigit := by
  induction n generalizing src with
  | zero => exact ⟨[], rfl, by rw [List.length_eq_zero_iff.mp length]; rfl⟩
  | succ n ih =>
      match src with
      | [] => cases length
      | [_] => simp at length; omega
      | c1 :: c2 :: src =>
          obtain ⟨bytes, size, same⟩ := @ih src (by simp at length; omega) fun d mem =>
            valid d (List.mem_cons_of_mem _ (List.mem_cons_of_mem _ mem))
          obtain ⟨low1, high1⟩ := valid c1 List.mem_cons_self
          obtain ⟨low2, high2⟩ := valid c2 (List.mem_cons_of_mem _ List.mem_cons_self)
          obtain ⟨v1, eq1⟩ := Int.eq_ofNat_of_zero_le low1
          obtain ⟨v2, eq2⟩ := Int.eq_ofNat_of_zero_le low2
          have byte : (UInt8.ofNat (16 * v1 + v2)).toNat = 16 * v1 + v2 := Nat.mod_eq_of_lt (by omega)
          have high : (16 * v1 + v2) >>> 4 = v1 := by
            rw [Nat.shiftRight_eq_div_pow]
            omega
          have low : 16 * v1 + v2 &&& 0xf = v2 := by
            rw [Nat.and_two_pow_sub_one_eq_mod _ 4]
            omega
          refine ⟨UInt8.ofNat (16 * v1 + v2) :: bytes, by rw [List.length_cons, size], ?_⟩
          rw [List.flatMap_cons, List.map_append, ← same, Binascii.hexPair, byte, high, low, List.map_cons, List.map_cons,
            eq1, eq2, List.map_cons, List.map_singleton, (Binascii.hexChars_digit v1 (by omega)).2.2,
            (Binascii.hexChars_digit v2 (by omega)).2.2]
          rfl

end Digits
end TorJet.Nodefamily
