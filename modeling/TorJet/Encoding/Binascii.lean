import Mathlib.Algebra.Group.Nat.Defs
import Mathlib.Algebra.GroupWithZero.Nat
import Mathlib.Data.List.GetD
import TorJet.Net.CString

/-!
# Base 16 and base 32

`lib/encoding/binascii.c`. Texts and data are bytes; a destination is a buffer of as many bytes as the caller says it
has, and each access of a buffer names the place it goes to.
-/

namespace TorJet.Encoding.Binascii
open Net

inductive Fault
  | read
  | write
  | assertion
  deriving DecidableEq

abbrev Outcome := Except Fault (Int × List UInt8)

def read {α : Type} (buf : List α) (i : Nat) : Except Fault α :=
  match buf[i]? with
  | some b => .ok b
  | none => .error .read

def write (buf : List UInt8) (i : Nat) (b : UInt8) : Except Fault (List UInt8) :=
  if i < buf.length then .ok (buf.set i b) else .error .write

/-- `memset(dest, 0, destlen)` -/
def zeros (dest : List UInt8) : List UInt8 := List.replicate dest.length 0

def ceilDiv (a b : Nat) : Nat := (a + (b - 1)) / b

def intMax : Nat := 2 ^ 31 - 1

def bytesOf (s : String) : List UInt8 := s.toList.map fun c => UInt8.ofNat c.toNat

/-! ## Base 16 -/

def hexChars : List UInt8 := bytesOf "0123456789ABCDEF"

/-- The loop of `base16_encode`; `src` is what is left of the source, `cp` the place of the next write. -/
def base16EncodeLoop : (src dest : List UInt8) → (cp : Nat) → Except Fault (List UInt8 × Nat)
  | [], dest, cp => .ok (dest, cp)
  | b :: src, dest, cp => do
      let dest ← write dest cp (← read hexChars (b.toNat >>> 4))
      let dest ← write dest (cp + 1) (← read hexChars (b.toNat &&& 0xf))
      base16EncodeLoop src dest (cp + 2)

def base16Encode (dest src : List UInt8) : Except Fault (List UInt8) :=
  if src.length < sizeTCeiling / 2 - 1 ∧ src.length * 2 + 1 ≤ dest.length ∧ dest.length < sizeTCeiling then do
    let (dest, cp) ← base16EncodeLoop src (zeros dest) 0
    write dest cp 0
  else .error .assertion

def hexDecodeDigit (c : UInt8) : Int :=
  if 48 ≤ c ∧ c ≤ 57 then c.toNat - 48
  else if 65 ≤ c ∧ c ≤ 70 then c.toNat - 55
  else if 97 ≤ c ∧ c ≤ 102 then c.toNat - 87
  else -1

/-- The loop of `base16_decode`; `pos` is how far the destination is written. -/
def base16DecodeLoop : (src dest : List UInt8) → (pos : Nat) → Outcome
  | [], dest, pos => .ok (pos, dest)
  | [_], _, _ => .error .read
  | c1 :: c2 :: src, dest, pos =>
      let v1 := hexDecodeDigit c1
      let v2 := hexDecodeDigit c2
      if v1 < 0 ∨ v2 < 0 then .ok (-1, dest)
      else do
        let dest ← write dest pos (UInt8.ofNat (v1.toNat <<< 4 ||| v2.toNat))
        base16DecodeLoop src dest (pos + 1)

def base16Decode (dest src : List UInt8) : Outcome :=
  if src.length % 2 ≠ 0 then .ok (-1, dest)
  else if dest.length < src.length / 2 ∨ intMax < dest.length then .ok (-1, dest)
  else do
    let (ret, out) ← base16DecodeLoop src (zeros dest) 0
    if ret ≤ dest.length then .ok (ret, out) else .error .assertion

/-! ## Base 32 -/

def base32Chars : List UInt8 := bytesOf "abcdefghijklmnopqrstuvwxyz234567"

/-- `base32_encoded_size`; the terminating NUL is counted. -/
def base32EncodedSize (srclen : Nat) : Except Fault Nat :=
  if srclen < sizeTCeiling / 8 then
    let enclen := ceilDiv (srclen * 8) 5 + 1
    if enclen < intMax ∧ srclen < enclen then .ok enclen else .error .assertion
  else .error .assertion

/-- The character that `base32_encode` writes in the round at `bit`. -/
def base32Char (src : List UInt8) (bit : Nat) : Except Fault UInt8 := do
  let idx := bit / 8
  let first ← read src idx
  let next ← (if idx + 1 < src.length then read src (idx + 1) else .ok 0)
  let v := first.toNat <<< 8 + next.toNat
  let u := v >>> (11 - bit % 8) &&& 0x1f
  read base32Chars u

/-- Round `i` of the loop is at bit `5 * i`. -/
def base32Encode (dest src : List UInt8) : Except Fault (List UInt8) := do
  let size ← base32EncodedSize src.length
  if size ≤ dest.length ∧ dest.length < sizeTCeiling then do
    let rounds := ceilDiv (src.length * 8) 5
    let dest ← (List.range rounds).foldlM (fun dest i => do write dest i (← base32Char src (5 * i))) (zeros dest)
    write dest rounds 0
  else .error .assertion

def base32Digit (c : UInt8) : Option Nat :=
  if 0x60 < c ∧ c < 0x7b then some (c.toNat - 0x61)
  else if 0x31 < c ∧ c < 0x38 then some (c.toNat - 0x18)
  else if 0x40 < c ∧ c < 0x5b then some (c.toNat - 0x41)
  else none

/-- The byte that `base32_decode` puts together in the round at `bit`. -/
def base32Byte (tmp : List Nat) (bit : Nat) : Except Fault UInt8 := do
  let t0 ← read tmp (bit / 5)
  let t1 ← read tmp (bit / 5 + 1)
  if bit % 40 = 0 then .ok (UInt8.ofNat (t0 <<< 3 + t1 >>> 2))
  else if bit % 40 = 8 then do
    let t2 ← read tmp (bit / 5 + 2)
    .ok (UInt8.ofNat (t0 <<< 6 + t1 <<< 1 + t2 >>> 4))
  else if bit % 40 = 16 then .ok (UInt8.ofNat (t0 <<< 4 + t1 >>> 1))
  else if bit % 40 = 24 then do
    let t2 ← read tmp (bit / 5 + 2)
    .ok (UInt8.ofNat (t0 <<< 7 + t1 <<< 2 + t2 >>> 3))
  else .ok (UInt8.ofNat (t0 <<< 5 + t1))

/-- Round `i` of the loop is at bit `8 * i`; the counter is an unsigned int and the result an int. -/
def base32Decode (dest src : List UInt8) : Outcome :=
  let nbits := src.length * 5 / 8 * 8
  if src.length < sizeTCeiling / 5 ∧ nbits / 8 ≤ dest.length ∧ dest.length < sizeTCeiling then
    match src.mapM base32Digit with
    | none => .ok (-1, zeros dest)
    | some tmp => do
        let out ← (List.range (nbits / 8)).foldlM
          (fun dest i => do write dest (i % 2 ^ 32) (← base32Byte tmp (8 * i))) (zeros dest)
        .ok (Int.bmod (nbits / 8 : Nat) (2 ^ 32), out)
  else .error .assertion

/-! ## Buffers that are filled from the front -/

section Buffers
variable {w : List UInt8} {n : Nat} {b : UInt8}

/-- A buffer of zeros with `w` written to its front. -/
def filled (w : List UInt8) (n : Nat) : List UInt8 := w ++ List.replicate (n - w.length) 0

theorem zeros_eq (dest : List UInt8) : zeros dest = filled [] dest.length := rfl

theorem length_filled (room : w.length ≤ n) : (filled w n).length = n := by
  rw [filled, List.length_append, List.length_replicate]
  omega

theorem write_filled (room : w.length < n) : write (filled w n) w.length b = .ok (filled (w ++ [b]) n) := by
  have more : n - w.length = n - (w ++ [b]).length + 1 := by
    rw [List.length_append, List.length_singleton]
    omega
  rw [write, length_filled (Nat.le_of_lt room), if_pos room, filled, filled, more, List.replicate_succ,
    List.set_append_right _ _ (Nat.le_refl _), Nat.sub_self, List.set_cons_zero, List.append_assoc]
  rfl

theorem read_of_lt {α : Type} {l : List α} {i : Nat} (inside : i < l.length) : read l i = .ok l[i] := by
  rw [read, List.getElem?_eq_getElem inside]

theorem write_of_lt {buf : List UInt8} {i : Nat} (inside : i < buf.length) : write buf i b = .ok (buf.set i b) :=
  if_pos inside

def Holds (buf text : List UInt8) : Prop := 0 ∉ text ∧ ∃ rest, buf = text ++ 0 :: rest

theorem write_nul (room : w.length < n) : write (filled w n) w.length 0 = .ok (filled w n) := by
  rw [write_filled room, filled, filled, List.append_assoc, List.length_append, List.length_singleton, List.singleton_append,
    ← List.replicate_succ]
  have rest : n - (w.length + 1) + 1 = n - w.length := by omega
  rw [rest]

theorem holds_filled (room : w.length < n) (black : 0 ∉ w) : Holds (filled w n) w := by
  refine ⟨black, List.replicate (n - w.length - 1) 0, ?_⟩
  have rest : n - w.length = n - w.length - 1 + 1 := by omega
  rw [filled, ← List.replicate_succ, ← rest]

theorem foldlM_write {f : Nat → Except Fault UInt8} {p : Nat → Nat} {out : Nat → UInt8} (k : Nat) (room : k ≤ n)
    (byte : ∀ i < k, f i = .ok (out i)) (place : ∀ i < k, p i = i) :
    (List.range k).foldlM (fun dest i => do write dest (p i) (← f i)) (filled [] n) =
      .ok (filled ((List.range k).map out) n) := by
  induction k with
  | zero => rfl
  | succ k ih =>
      have before := ih (by omega) (fun i less => byte i (by omega)) fun i less => place i (by omega)
      have written : ((List.range k).map out).length = k := by rw [List.length_map, List.length_range]
      have last := write_filled (w := (List.range k).map out) (b := out k) (n := n) (by omega)
      rw [written] at last
      rw [List.range_succ, List.foldlM_append, before, List.map_append]
      simp only [List.foldlM_cons, List.foldlM_nil, byte k (Nat.lt_succ_self k), place k (Nat.lt_succ_self k)]
      exact congrArg (· >>= pure) last

theorem foldlM_write_safe {f : Nat → Except Fault UInt8} {p : Nat → Nat} (k : Nat) (dest : List UInt8)
    (byte : ∀ i < k, ∃ b, f i = .ok b) (place : ∀ i < k, p i < dest.length) :
    ∃ out, (List.range k).foldlM (fun dest i => do write dest (p i) (← f i)) dest = .ok out ∧
      out.length = dest.length := by
  induction k with
  | zero => exact ⟨dest, rfl, rfl⟩
  | succ k ih =>
      obtain ⟨out, before, same⟩ := ih (fun i less => byte i (by omega)) fun i less => place i (by omega)
      obtain ⟨b, value⟩ := byte k (Nat.lt_succ_self k)
      have inside : p k < out.length := same ▸ place k (Nat.lt_succ_self k)
      refine ⟨out.set (p k) b, ?_, by rw [List.length_set, same]⟩
      rw [List.range_succ, List.foldlM_append, before]
      simp only [List.foldlM_cons, List.foldlM_nil, value]
      exact congrArg (· >>= pure) (write_of_lt inside)

end Buffers

/-! ## Base 16 inverts -/

def hexPair (b : UInt8) : List UInt8 :=
  [hexChars.getD (b.toNat >>> 4) 0, hexChars.getD (b.toNat &&& 0xf) 0]

theorem halves (b : UInt8) : b.toNat >>> 4 < 16 ∧ b.toNat &&& 0xf < 16 ∧
    b.toNat >>> 4 <<< 4 ||| (b.toNat &&& 0xf) = b.toNat := by
  have small : b.toNat < 2 ^ 8 := b.toNat_lt
  have high : b.toNat >>> 4 = b.toNat / 16 := Nat.shiftRight_eq_div_pow b.toNat 4
  have low : b.toNat &&& 0xf = b.toNat % 16 := Nat.and_two_pow_sub_one_eq_mod b.toNat 4
  have lowSmall : b.toNat &&& 0xf < 2 ^ 4 := by omega
  rw [← Nat.shiftLeft_add_eq_or_of_lt lowSmall, Nat.shiftLeft_eq]
  omega

theorem hexChars_digit : ∀ v < 16, read hexChars v = .ok (hexChars.getD v 0) ∧ hexChars.getD v 0 ≠ 0 ∧
    hexDecodeDigit (hexChars.getD v 0) = v := by
  decide

theorem base16EncodeLoop_eq {n : Nat} (src w : List UInt8) (room : w.length + 2 * src.length ≤ n) :
    base16EncodeLoop src (filled w n) w.length =
      .ok (filled (w ++ src.flatMap hexPair) n, w.length + 2 * src.length) := by
  induction src generalizing w with
  | nil => rw [base16EncodeLoop, List.flatMap_nil, List.append_nil, List.length_nil, Nat.mul_zero, Nat.add_zero]
  | cons b src ih =>
      rw [List.length_cons] at room
      obtain ⟨highSmall, lowSmall, -⟩ := halves b
      have high := (hexChars_digit _ highSmall).1
      have low := (hexChars_digit _ lowSmall).1
      have first := write_filled (w := w) (n := n) (b := hexChars.getD (b.toNat >>> 4) 0) (by omega)
      have second := write_filled (w := w ++ [hexChars.getD (b.toNat >>> 4) 0]) (n := n)
        (b := hexChars.getD (b.toNat &&& 0xf) 0) (by rw [List.length_append, List.length_singleton]; omega)
      have rest := ih (w ++ hexPair b) (by rw [List.length_append, hexPair, List.length_cons, List.length_singleton]; omega)
      rw [List.length_append, List.length_singleton, List.append_assoc] at second
      rw [List.length_append] at rest
      simp only [base16EncodeLoop, high, low]
      calc (write (filled w n) w.length _ >>= fun dest => write dest (w.length + 1) _ >>= fun dest =>
              base16EncodeLoop src dest (w.length + 2))
          = base16EncodeLoop src (filled (w ++ hexPair b) n) (w.length + 2) := by
            rw [first]
            exact congrArg (· >>= fun dest => base16EncodeLoop src dest (w.length + 2)) second
        _ = _ := by
            rw [show w.length + 2 = w.length + (hexPair b).length from rfl, rest, List.flatMap_cons, List.append_assoc,
              List.length_cons]
            congr 2
            show w.length + 2 + 2 * src.length = w.length + 2 * (src.length + 1)
            omega

theorem base16DecodeLoop_eq {n : Nat} (src w : List UInt8) (room : w.length + src.length ≤ n) :
    base16DecodeLoop (src.flatMap hexPair) (filled w n) w.length =
      .ok (((w ++ src).length : Nat), filled (w ++ src) n) := by
  induction src generalizing w with
  | nil => rw [List.flatMap_nil, base16DecodeLoop, List.append_nil]
  | cons b src ih =>
      rw [List.length_cons] at room
      obtain ⟨highSmall, lowSmall, whole⟩ := halves b
      have high := (hexChars_digit _ highSmall).2.2
      have low := (hexChars_digit _ lowSmall).2.2
      have byte := write_filled (w := w) (n := n) (b := b) (by omega)
      have rest := ih (w ++ [b]) (by rw [List.length_append, List.length_singleton]; omega)
      rw [List.flatMap_cons, hexPair, List.cons_append, List.singleton_append, base16DecodeLoop]
      simp only [high, low, Int.toNat_natCast, whole, UInt8.ofNat_toNat]
      rw [List.length_append, List.length_singleton] at rest
      rw [if_neg (by omega), byte, List.append_cons w b src]
      exact rest

theorem length_hexPairs (src : List UInt8) : (src.flatMap hexPair).length = 2 * src.length := by
  induction src with
  | nil => rfl
  | cons b src ih =>
      rw [List.flatMap_cons, List.length_append, ih, List.length_cons]
      show 2 + 2 * src.length = 2 * (src.length + 1)
      omega

theorem hexPairs_black (src : List UInt8) : 0 ∉ src.flatMap hexPair := by
  intro inside
  obtain ⟨b, -, digit⟩ := List.mem_flatMap.mp inside
  obtain ⟨highSmall, lowSmall, -⟩ := halves b
  rw [hexPair, List.mem_cons, List.mem_singleton] at digit
  obtain same | same := digit
  · exact (hexChars_digit _ highSmall).2.1 same.symm
  · exact (hexChars_digit _ lowSmall).2.1 same.symm

theorem base16Encode_eq {dest src : List UInt8} (short : src.length < sizeTCeiling / 2 - 1)
    (room : src.length * 2 + 1 ≤ dest.length) (sane : dest.length < sizeTCeiling) :
    base16Encode dest src = .ok (filled (src.flatMap hexPair) dest.length) := by
  have loop := base16EncodeLoop_eq (n := dest.length) src [] (by rw [List.length_nil]; omega)
  have written := length_hexPairs src
  have last := write_nul (w := src.flatMap hexPair) (n := dest.length) (by omega)
  rw [written] at last
  rw [List.nil_append, List.length_nil, Nat.zero_add] at loop
  rw [base16Encode, if_pos ⟨short, room, sane⟩, zeros_eq, loop]
  exact last

theorem base16Decode_eq {dest src : List UInt8} (room : src.length ≤ dest.length) (sane : dest.length ≤ intMax) :
    base16Decode dest (src.flatMap hexPair) = .ok ((src.length : Nat), filled src dest.length) := by
  have loop := base16DecodeLoop_eq (n := dest.length) src [] (by rw [List.length_nil, Nat.zero_add]; exact room)
  rw [base16Decode, length_hexPairs, if_neg (by omega), if_neg (by omega), zeros_eq]
  rw [List.nil_append, List.length_nil] at loop
  rw [loop]
  exact if_pos (Int.ofNat_le.mpr room)

theorem base16DecodeLoop_safe {src dest : List UInt8} {pos : Nat} (even : src.length % 2 = 0)
    (room : pos + src.length / 2 ≤ dest.length) :
    ∃ ret out, base16DecodeLoop src dest pos = .ok (ret, out) ∧ ret ≤ dest.length ∧ out.length = dest.length := by
  induction src, dest, pos using base16DecodeLoop.induct with
  | case1 dest pos => exact ⟨_, dest, rfl, Int.ofNat_le.mpr (by omega), rfl⟩
  | case2 => cases even
  | case3 c1 c2 src dest pos v1 v2 bad =>
      refine ⟨-1, dest, ?_, by omega, rfl⟩
      rw [base16DecodeLoop]
      exact if_pos bad
  | case4 c1 c2 src dest pos v1 v2 good ih =>
      rw [List.length_cons, List.length_cons] at even room
      have inside : pos < dest.length := by omega
      have written := write_of_lt (b := UInt8.ofNat (v1.toNat <<< 4 ||| v2.toNat)) inside
      obtain ⟨ret, out, rest, short, same⟩ :=
        ih (dest.set pos (UInt8.ofNat (v1.toNat <<< 4 ||| v2.toNat))) (by omega) (by rw [List.length_set]; omega)
      rw [List.length_set] at short same
      refine ⟨ret, out, ?_, short, same⟩
      rw [base16DecodeLoop]
      refine (if_neg good).trans ?_
      rw [written]
      exact rest

theorem base16Decode_safe (dest src : List UInt8) :
    ∃ ret out, base16Decode dest src = .ok (ret, out) ∧ out.length = dest.length := by
  by_cases even : src.length % 2 ≠ 0
  · exact ⟨-1, dest, if_pos even, rfl⟩
  by_cases small : dest.length < src.length / 2 ∨ intMax < dest.length
  · exact ⟨-1, dest, by rw [base16Decode, if_neg even, if_pos small], rfl⟩
  have room : 0 + src.length / 2 ≤ (zeros dest).length := by
    rw [zeros, List.length_replicate]
    omega
  obtain ⟨ret, out, loop, short, same⟩ := base16DecodeLoop_safe (not_not.mp even) room
  rw [zeros, List.length_replicate] at short same
  refine ⟨ret, out, ?_, same⟩
  rw [base16Decode, if_neg even, if_neg small]
  rw [zeros] at loop
  rw [zeros, loop]
  exact if_pos short

/-! ## Base 32 inverts -/

/-- The five bits at bit `5 * i` of the source. -/
def symbol (src : List UInt8) (i : Nat) : Nat :=
  ((src.getD (5 * i / 8) 0).toNat * 256 + (src.getD (5 * i / 8 + 1) 0).toNat) / 2 ^ (11 - 5 * i % 8) % 32

/-- How many characters `base32_encode` writes. -/
def base32Rounds (src : List UInt8) : Nat := ceilDiv (src.length * 8) 5

def base32Text (src : List UInt8) : List UInt8 :=
  (List.range (base32Rounds src)).map fun i => base32Chars.getD (symbol src i) 0

theorem base32Chars_digit : ∀ v < 32, read base32Chars v = .ok (base32Chars.getD v 0) ∧ base32Chars.getD v 0 ≠ 0 ∧
    base32Digit (base32Chars.getD v 0) = some v := by
  decide

theorem base32Char_eq {src : List UInt8} {i : Nat} (inside : i < base32Rounds src) :
    base32Char src (5 * i) = .ok (base32Chars.getD (symbol src i) 0) := by
  rw [base32Rounds, ceilDiv] at inside
  have within : 5 * i / 8 < src.length := by omega
  have second : (if 5 * i / 8 + 1 < src.length then read src (5 * i / 8 + 1) else .ok 0) =
      .ok (src.getD (5 * i / 8 + 1) 0) := by
    split
    · next more => rw [read_of_lt more, List.getD_eq_getElem _ _ more]
    · next none => rw [List.getD_eq_default _ _ (not_lt.mp none)]
  have value : ((src.getD (5 * i / 8) 0).toNat <<< 8 + (src.getD (5 * i / 8 + 1) 0).toNat) >>> (11 - 5 * i % 8) &&& 0x1f =
      symbol src i := by
    rw [symbol, Nat.shiftLeft_eq, Nat.shiftRight_eq_div_pow]
    exact Nat.and_two_pow_sub_one_eq_mod _ 5
  have char := (base32Chars_digit (symbol src i) (Nat.mod_lt _ (by decide))).1
  rw [base32Char, read_of_lt within, second, ← List.getD_eq_getElem src 0 within]
  exact (congrArg (read base32Chars) value).trans char

theorem length_base32Text (src : List UInt8) : (base32Text src).length = base32Rounds src := by
  rw [base32Text, List.length_map, List.length_range]

theorem symbol_lt (src : List UInt8) (i : Nat) : symbol src i < 32 := Nat.mod_lt _ (by decide)

theorem base32Text_black (src : List UInt8) : 0 ∉ base32Text src := by
  intro inside
  obtain ⟨i, -, same⟩ := List.mem_map.mp inside
  exact (base32Chars_digit _ (symbol_lt src i)).2.1 same

theorem base32EncodedSize_bounds {srclen size : Nat} (known : base32EncodedSize srclen = .ok size) :
    size = ceilDiv (srclen * 8) 5 + 1 ∧ size < 2 ^ 31 - 1 ∧ srclen < size := by
  rw [base32EncodedSize] at known
  split at known
  · simp only at known
    split at known
    · next bound =>
        obtain rfl := Except.ok.inj known
        exact ⟨rfl, bound.1, bound.2⟩
    · cases known
  · cases known

theorem base32EncodedSize_eq {src : List UInt8} {size : Nat} (known : base32EncodedSize src.length = .ok size) :
    size = base32Rounds src + 1 := (base32EncodedSize_bounds known).1

theorem base32Encode_eq {dest src : List UInt8} {size : Nat} (known : base32EncodedSize src.length = .ok size)
    (room : size ≤ dest.length) (sane : dest.length < sizeTCeiling) :
    base32Encode dest src = .ok (filled (base32Text src) dest.length) := by
  have sizeEq := base32EncodedSize_eq known
  have loop := foldlM_write (n := dest.length) (f := fun i => base32Char src (5 * i)) (p := fun i => i)
    (base32Rounds src) (by omega) (fun i less => base32Char_eq less) fun _ _ => rfl
  have last := write_nul (w := base32Text src) (n := dest.length) (by rw [length_base32Text]; omega)
  rw [length_base32Text] at last
  rw [base32Encode, known]
  refine (if_pos ⟨room, sane⟩).trans ?_
  rw [zeros_eq]
  exact (congrArg (· >>= fun dest => write dest (base32Rounds src) 0) loop).trans last

theorem mapM_digits (src : List UInt8) (l : List Nat) :
    (l.map fun i => base32Chars.getD (symbol src i) 0).mapM base32Digit = some (l.map (symbol src)) := by
  induction l with
  | nil => rfl
  | cons i l ih =>
      have digit := (base32Chars_digit _ (symbol_lt src i)).2.2
      rw [List.map_cons, List.map_cons, List.mapM_cons, digit, ih]
      rfl

theorem symbol_at (src : List UInt8) (q k : Nat) : symbol src (8 * q + k) =
    ((src.getD (5 * q + 5 * k / 8) 0).toNat * 256 + (src.getD (5 * q + (5 * k / 8 + 1)) 0).toNat) /
      2 ^ (11 - 5 * k % 8) % 32 := by
  have place : 5 * (8 * q + k) / 8 = 5 * q + 5 * k / 8 := by omega
  have shift : 5 * (8 * q + k) % 8 = 5 * k % 8 := by omega
  rw [symbol, place, shift, Nat.add_assoc]

theorem byte_of_symbols {value : Nat} (b : UInt8) (same : value % 256 = b.toNat) : UInt8.ofNat value = b := by
  rw [← UInt8.toNat_inj, UInt8.toNat_ofNat']
  exact same

theorem regroup {a b c d e f : Nat} (ltA : a < 256) (ltB : b < 256) (ltC : c < 256) (ltD : d < 256) (ltE : e < 256)
    (ltF : f < 256) :
    (((a * 256 + b) / 2048 % 32) <<< 3 + ((a * 256 + b) / 64 % 32) >>> 2) % 256 = a ∧
    (((a * 256 + b) / 64 % 32) <<< 6 + ((b * 256 + c) / 512 % 32) <<< 1 + ((b * 256 + c) / 16 % 32) >>> 4) % 256 = b ∧
    (((b * 256 + c) / 16 % 32) <<< 4 + ((c * 256 + d) / 128 % 32) >>> 1) % 256 = c ∧
    (((c * 256 + d) / 128 % 32) <<< 7 + ((d * 256 + e) / 1024 % 32) <<< 2 + ((d * 256 + e) / 32 % 32) >>> 3) % 256 = d ∧
    (((d * 256 + e) / 32 % 32) <<< 5 + ((e * 256 + f) / 256 % 32)) % 256 = e := by
  simp only [Nat.shiftLeft_eq, Nat.shiftRight_eq_div_pow]
  refine ⟨?_, ?_, ?_, ?_, ?_⟩
  · omega
  · omega
  · omega
  · omega
  · omega

theorem bytes_of_symbols (src : List UInt8) (q : Nat) :
    UInt8.ofNat (symbol src (8 * q) <<< 3 + symbol src (8 * q + 1) >>> 2) = src.getD (5 * q) 0 ∧
    UInt8.ofNat (symbol src (8 * q + 1) <<< 6 + symbol src (8 * q + 2) <<< 1 + symbol src (8 * q + 3) >>> 4) = src.getD (5 * q + 1) 0 ∧
    UInt8.ofNat (symbol src (8 * q + 3) <<< 4 + symbol src (8 * q + 4) >>> 1) = src.getD (5 * q + 2) 0 ∧
    UInt8.ofNat (symbol src (8 * q + 4) <<< 7 + symbol src (8 * q + 5) <<< 2 + symbol src (8 * q + 6) >>> 3) = src.getD (5 * q + 3) 0 ∧
    UInt8.ofNat (symbol src (8 * q + 6) <<< 5 + symbol src (8 * q + 7)) = src.getD (5 * q + 4) 0 := by
  have s0 := symbol_at src q 0
  have s1 := symbol_at src q 1
  have s2 := symbol_at src q 2
  have s3 := symbol_at src q 3
  have s4 := symbol_at src q 4
  have s5 := symbol_at src q 5
  have s6 := symbol_at src q 6
  have s7 := symbol_at src q 7
  obtain ⟨a, b, c, d, e⟩ := regroup (UInt8.toNat_lt (src.getD (5 * q) 0)) (UInt8.toNat_lt (src.getD (5 * q + 1) 0))
    (UInt8.toNat_lt (src.getD (5 * q + 2) 0)) (UInt8.toNat_lt (src.getD (5 * q + 3) 0))
    (UInt8.toNat_lt (src.getD (5 * q + 4) 0)) (UInt8.toNat_lt (src.getD (5 * q + 5) 0))
  refine ⟨byte_of_symbols _ ?_, byte_of_symbols _ ?_, byte_of_symbols _ ?_, byte_of_symbols _ ?_, byte_of_symbols _ ?_⟩
  · rw [s1]
    exact (congrArg (fun x => (x <<< 3 + _) % 256) s0).trans a
  · rw [s1, s2, s3]
    exact b
  · rw [s3, s4]
    exact c
  · rw [s4, s5, s6]
    exact d
  · rw [s6, s7]
    exact e

theorem base32Byte_reads {tmp : List Nat} {bit x y : Nat} (t0 : read tmp (bit / 5) = .ok x)
    (t1 : read tmp (bit / 5 + 1) = .ok y) : base32Byte tmp bit =
      if bit % 40 = 0 then .ok (UInt8.ofNat (x <<< 3 + y >>> 2))
      else if bit % 40 = 8 then read tmp (bit / 5 + 2) >>= fun z => .ok (UInt8.ofNat (x <<< 6 + y <<< 1 + z >>> 4))
      else if bit % 40 = 16 then .ok (UInt8.ofNat (x <<< 4 + y >>> 1))
      else if bit % 40 = 24 then read tmp (bit / 5 + 2) >>= fun z => .ok (UInt8.ofNat (x <<< 7 + y <<< 2 + z >>> 3))
      else .ok (UInt8.ofNat (x <<< 5 + y)) := by
  rw [base32Byte, t0, t1]
  rfl

theorem base32Byte_eq {src : List UInt8} {tmp : List Nat} {i : Nat} (inside : i < src.length)
    (symbols : ∀ k < base32Rounds src, read tmp k = .ok (symbol src k)) :
    base32Byte tmp (8 * i) = .ok (src.getD i 0) := by
  obtain ⟨q, r, small, rfl⟩ : ∃ q r, r < 5 ∧ i = 5 * q + r := ⟨i / 5, i % 5, Nat.mod_lt _ (by decide), by omega⟩
  obtain ⟨a, b, c, d, e⟩ := bytes_of_symbols src q
  rw [base32Rounds, ceilDiv] at symbols
  have atPlace {k place : Nat} (same : place = k) (low : k < (src.length * 8 + (5 - 1)) / 5) :
      read tmp place = .ok (symbol src k) := same ▸ symbols k low
  obtain rfl | rfl | rfl | rfl | rfl : r = 0 ∨ r = 1 ∨ r = 2 ∨ r = 3 ∨ r = 4 := by omega
  · rw [Nat.add_zero]
    have t0 : read tmp (8 * (5 * q) / 5) = .ok (symbol src (8 * q)) := atPlace (by omega) (by omega)
    have t1 : read tmp (8 * (5 * q) / 5 + 1) = .ok (symbol src (8 * q + 1)) := atPlace (by omega) (by omega)
    rw [base32Byte_reads t0 t1, if_pos (by omega), ← a]
  · have t0 : read tmp (8 * (5 * q + 1) / 5) = .ok (symbol src (8 * q + 1)) := atPlace (by omega) (by omega)
    have t1 : read tmp (8 * (5 * q + 1) / 5 + 1) = .ok (symbol src (8 * q + 2)) := atPlace (by omega) (by omega)
    have t2 : read tmp (8 * (5 * q + 1) / 5 + 2) = .ok (symbol src (8 * q + 3)) := atPlace (by omega) (by omega)
    rw [base32Byte_reads t0 t1, if_neg (by omega), if_pos (by omega), t2, ← b]
    rfl
  · have t0 : read tmp (8 * (5 * q + 2) / 5) = .ok (symbol src (8 * q + 3)) := atPlace (by omega) (by omega)
    have t1 : read tmp (8 * (5 * q + 2) / 5 + 1) = .ok (symbol src (8 * q + 4)) := atPlace (by omega) (by omega)
    rw [base32Byte_reads t0 t1, if_neg (by omega), if_neg (by omega), if_pos (by omega), ← c]
  · have t0 : read tmp (8 * (5 * q + 3) / 5) = .ok (symbol src (8 * q + 4)) := atPlace (by omega) (by omega)
    have t1 : read tmp (8 * (5 * q + 3) / 5 + 1) = .ok (symbol src (8 * q + 5)) := atPlace (by omega) (by omega)
    have t2 : read tmp (8 * (5 * q + 3) / 5 + 2) = .ok (symbol src (8 * q + 6)) := atPlace (by omega) (by omega)
    rw [base32Byte_reads t0 t1, if_neg (by omega), if_neg (by omega), if_neg (by omega), if_pos (by omega), t2, ← d]
    rfl
  · have t0 : read tmp (8 * (5 * q + 4) / 5) = .ok (symbol src (8 * q + 6)) := atPlace (by omega) (by omega)
    have t1 : read tmp (8 * (5 * q + 4) / 5 + 1) = .ok (symbol src (8 * q + 7)) := atPlace (by omega) (by omega)
    rw [base32Byte_reads t0 t1, if_neg (by omega), if_neg (by omega), if_neg (by omega), if_neg (by omega), ← e]

theorem base32Decode_eq {back src : List UInt8} {size : Nat} (known : base32EncodedSize src.length = .ok size)
    (room : src.length ≤ back.length) (sane : back.length < sizeTCeiling) :
    base32Decode back (base32Text src) = .ok ((src.length : Nat), filled src back.length) := by
  obtain ⟨-, bound, less⟩ := base32EncodedSize_bounds known
  have short : src.length < 2 ^ 31 - 1 := Nat.lt_trans less bound
  have count : base32Rounds src * 5 / 8 = src.length := by
    rw [base32Rounds, ceilDiv]
    omega
  have bits : base32Rounds src * 5 / 8 * 8 / 8 = src.length := by rw [count, Nat.mul_div_cancel _ (by decide)]
  have digits : (base32Text src).mapM base32Digit = some ((List.range (base32Rounds src)).map (symbol src)) := mapM_digits _ _
  have reads : ∀ k < base32Rounds src, read ((List.range (base32Rounds src)).map (symbol src)) k = .ok (symbol src k) := by
    intro k less
    rw [read_of_lt (by rw [List.length_map, List.length_range]; exact less), List.getElem_map, List.getElem_range]
  have loop := foldlM_write (n := back.length) (f := fun i => base32Byte _ (8 * i)) (p := (· % 2 ^ 32)) src.length room
    (fun i less => base32Byte_eq less reads) fun i less => Nat.mod_eq_of_lt (by omega)
  have all : (List.range src.length).map (src.getD · 0) = src := by
    apply List.ext_getElem
    · rw [List.length_map, List.length_range]
    · intro i _ inside
      rw [List.getElem_map, List.getElem_range, List.getD_eq_getElem]
  have value : Int.bmod src.length (2 ^ 32) = src.length := Int.bmod_eq_of_le (by omega) (by omega)
  rw [all] at loop
  rw [base32Decode, length_base32Text, digits]
  refine (if_pos ⟨by rw [sizeTCeiling]; omega, by rw [bits]; exact room, sane⟩).trans ?_
  simp only [bits]
  rw [zeros_eq, loop]
  exact congrArg (fun ret => Except.ok (ret, filled src back.length)) value

theorem length_of_mapM {α β : Type} {f : α → Option β} {l : List α} {r : List β} (all : l.mapM f = some r) :
    r.length = l.length := by
  induction l generalizing r with
  | nil =>
      obtain rfl := Option.some.inj all
      rfl
  | cons a l ih =>
      rw [List.mapM_cons] at all
      obtain ⟨b, -, rest⟩ := Option.bind_eq_some_iff.mp all
      obtain ⟨bs, tail, same⟩ := Option.bind_eq_some_iff.mp rest
      obtain rfl := Option.some.inj same
      rw [List.length_cons, List.length_cons, ih tail]

theorem base32Byte_safe {tmp : List Nat} {i : Nat} (inside : i < tmp.length * 5 / 8) : ∃ b, base32Byte tmp (8 * i) = .ok b := by
  have t0 := read_of_lt (l := tmp) (i := 8 * i / 5) (by omega)
  have t1 := read_of_lt (l := tmp) (i := 8 * i / 5 + 1) (by omega)
  rw [base32Byte_reads t0 t1]
  split
  · exact ⟨_, rfl⟩
  split
  · rw [read_of_lt (l := tmp) (i := 8 * i / 5 + 2) (by omega)]
    exact ⟨_, rfl⟩
  split
  · exact ⟨_, rfl⟩
  split
  · rw [read_of_lt (l := tmp) (i := 8 * i / 5 + 2) (by omega)]
    exact ⟨_, rfl⟩
  · exact ⟨_, rfl⟩

theorem base32Decode_safe (dest src : List UInt8) :
    (∃ ret out, base32Decode dest src = .ok (ret, out) ∧ out.length = dest.length) ∨
      base32Decode dest src = .error .assertion ∧
        ¬ (src.length < sizeTCeiling / 5 ∧ src.length * 5 / 8 ≤ dest.length ∧ dest.length < sizeTCeiling) := by
  have bits : src.length * 5 / 8 * 8 / 8 = src.length * 5 / 8 := Nat.mul_div_cancel _ (by decide)
  by_cases sane : src.length < sizeTCeiling / 5 ∧ src.length * 5 / 8 ≤ dest.length ∧ dest.length < sizeTCeiling
  · left
    rw [base32Decode]
    simp only [bits, if_pos sane]
    cases digits : src.mapM base32Digit with
    | none => exact ⟨-1, zeros dest, rfl, List.length_replicate⟩
    | some tmp =>
        have same : tmp.length = src.length := length_of_mapM digits
        have width : (zeros dest).length = dest.length := List.length_replicate
        obtain ⟨out, loop, kept⟩ := foldlM_write_safe (f := fun i => base32Byte tmp (8 * i)) (p := (· % 2 ^ 32))
          (src.length * 5 / 8) (zeros dest) (fun i less => base32Byte_safe (same ▸ less))
          fun i less => Nat.lt_of_le_of_lt (Nat.mod_le _ _) (by rw [width]; omega)
        refine ⟨Int.bmod (src.length * 5 / 8 : Nat) (2 ^ 32), out, ?_, kept.trans width⟩
        simp only [loop]
        rfl
  · right
    refine ⟨?_, sane⟩
    rw [base32Decode]
    simp only [bits, if_neg sane]

end TorJet.Encoding.Binascii
