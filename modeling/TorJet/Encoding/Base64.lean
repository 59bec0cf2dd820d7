import TorJet.Encoding.Binascii

/-!
# Base 64

The base 64 functions of `lib/encoding/binascii.c`, and what holds of all the codecs of the file.
-/

namespace TorJet.Encoding.Binascii
open Net

def base64EncodeTable : List UInt8 := bytesOf "ABCDEFGHIJKLMNOPQRSTUVWXYZabcdefghijklmnopqrstuvwxyz0123456789+/"

def base64Len (n : Nat) : Nat := ceilDiv n 3 * 4

/-- `base64_encode_size`; the terminating NUL is not counted. -/
def base64EncodeSize (srclen : Nat) (multiline : Bool) : Except Fault Nat :=
  if srclen < intMax ∧ ceilDiv srclen 3 < intMax / 4 then
    let enclen := base64Len srclen + if multiline then ceilDiv (base64Len srclen) 64 else 0
    if enclen < intMax ∧ (enclen = 0 ∨ srclen < enclen) then .ok enclen else .error .assertion
  else .error .assertion

def base64DecodeMaxsize (srclen : Nat) : Except Fault Nat :=
  if srclen < intMax / 3 then .ok (ceilDiv (srclen * 3) 4) else .error .assertion

/-- The destination of `base64_encode`, with the place of the next write. -/
structure Output where
  dest : List UInt8
  d : Nat
  linelen : Nat
  deriving DecidableEq

def encodeChar (multiline : Bool) (o : Output) (ch : UInt8) : Except Fault Output := do
  let dest ← write o.dest o.d ch
  if multiline then
    if (o.linelen + 1) % 64 = 0 then do
      let dest ← write dest (o.d + 1) 10
      .ok ⟨dest, o.d + 2, 0⟩
    else .ok ⟨dest, o.d + 1, o.linelen + 1⟩
  else .ok ⟨dest, o.d + 1, o.linelen⟩

def encodeN (multiline : Bool) (n idx : Nat) (o : Output) : Except Fault Output := do
  encodeChar multiline o (← read base64EncodeTable (n >>> ((3 - idx) * 6) &&& 0x3f))

/-- The loop of `base64_encode`, on what is left of the source. -/
def base64EncodeLoop (multiline : Bool) : List UInt8 → (n nIdx : Nat) → Output → Except Fault (Nat × Nat × Output)
  | [], n, nIdx, o => .ok (n, nIdx, o)
  | b :: src, n, nIdx, o =>
      let n := n <<< 8 % 2 ^ 32 ||| b.toNat
      if nIdx + 1 = 3 then do
        let o ← encodeN multiline n 0 o
        let o ← encodeN multiline n 1 o
        let o ← encodeN multiline n 2 o
        let o ← encodeN multiline n 3 o
        base64EncodeLoop multiline src 0 0 o
      else base64EncodeLoop multiline src n (nIdx + 1) o

def base64EncodeTail (multiline : Bool) (n nIdx : Nat) (o : Output) : Except Fault Output :=
  if nIdx = 1 then do
    let n := n <<< 4 % 2 ^ 32
    let o ← encodeN multiline n 2 o
    let o ← encodeN multiline n 3 o
    let o ← encodeChar multiline o 61
    encodeChar multiline o 61
  else if nIdx = 2 then do
    let n := n <<< 2 % 2 ^ 32
    let o ← encodeN multiline n 1 o
    let o ← encodeN multiline n 2 o
    let o ← encodeN multiline n 3 o
    encodeChar multiline o 61
  else .ok o

def finishLine (multiline : Bool) (o : Output) : Except Fault Output :=
  if multiline ∧ o.linelen ≠ 0 then do
    let dest ← write o.dest o.d 10
    .ok { o with dest := dest, d := o.d + 1 }
  else .ok o

def base64Encode (dest src : List UInt8) (multiline : Bool) : Outcome := do
  let enclen ← base64EncodeSize src.length multiline
  if dest.length < enclen + 1 ∨ sizeTCeiling < dest.length ∨ intMax < enclen then .ok (-1, dest)
  else do
    let (n, nIdx, o) ← base64EncodeLoop multiline src 0 0 ⟨zeros dest, 0, 0⟩
    let o ← base64EncodeTail multiline n nIdx o
    let o ← finishLine multiline o
    if o.d = enclen then do
      let dest ← write o.dest o.d 0
      .ok (enclen, dest)
    else .error .assertion

/-- The loop of `base64_encode_nopad` over the buffer; each round takes one character, so that `fuel` is for the bytes of
the buffer. -/
def nopadLoop : (fuel : Nat) → (dest : List UInt8) → (inn out : Nat) → Except Fault (List UInt8 × Nat)
  | 0, _, _, _ => .error .read
  | fuel + 1, dest, inn, out => do
      let c ← read dest inn
      if c = 0 then .ok (dest, out)
      else if c = 61 ∨ c = 10 then nopadLoop fuel dest (inn + 1) out
      else do
        let dest ← write dest out c
        nopadLoop fuel dest (inn + 1) (out + 1)

def base64EncodeNopad (dest src : List UInt8) : Outcome := do
  let (n, dest) ← base64Encode dest src false
  if n ≤ 0 then .ok (n, dest)
  else if n < dest.length ∧ dest[n.toNat]? = some 0 then do
    let (dest, out) ← nopadLoop (dest.length + 1) dest 0 0
    let dest ← write dest out 0
    if out ≤ intMax then .ok (out, dest) else .error .assertion
  else .error .assertion

inductive Sextet
  | bits (v : Nat)
  | sp
  | pad
  | x
  deriving DecidableEq

def base64DecodeTable (c : UInt8) : Sextet :=
  if (9 ≤ c ∧ c ≤ 11) ∨ c = 13 ∨ c = 32 then .sp
  else if c = 43 then .bits 62
  else if c = 47 then .bits 63
  else if 48 ≤ c ∧ c ≤ 57 then .bits (c.toNat + 4)
  else if c = 61 then .pad
  else if 65 ≤ c ∧ c ≤ 90 then .bits (c.toNat - 65)
  else if 97 ≤ c ∧ c ≤ 122 then .bits (c.toNat - 71)
  else .x

/-- Where the loop of `base64_decode` stands. -/
structure Input where
  n : Nat
  nIdx : Nat
  dest : List UInt8
  di : Nat
  deriving DecidableEq

/-- The loop of `base64_decode`, on what is left of the source, with whether the call goes on. -/
def base64DecodeLoop : List UInt8 → Input → Except Fault (Bool × Input)
  | [], s => .ok (true, s)
  | c :: src, s =>
      match base64DecodeTable c with
      | .x => .ok (false, s)
      | .sp => base64DecodeLoop src s
      | .pad => .ok (true, s)
      | .bits v =>
          let n := s.n <<< 6 % 2 ^ 32 ||| v
          if s.nIdx + 1 = 4 then
            if s.dest.length < 3 ∨ s.dest.length - 3 < s.di then .ok (false, s)
            else do
              let dest ← write s.dest s.di (UInt8.ofNat (n >>> 16))
              let dest ← write dest (s.di + 1) (UInt8.ofNat (n >>> 8 &&& 0xff))
              let dest ← write dest (s.di + 2) (UInt8.ofNat (n &&& 0xff))
              base64DecodeLoop src ⟨0, 0, dest, s.di + 3⟩
          else base64DecodeLoop src ⟨n, s.nIdx + 1, s.dest, s.di⟩

def base64DecodeTail (s : Input) : Except Fault (Bool × Input) :=
  if s.nIdx = 1 then .ok (false, s)
  else if s.nIdx = 2 then
    if s.dest.length < 1 ∨ s.dest.length - 1 < s.di then .ok (false, s)
    else do
      let dest ← write s.dest s.di (UInt8.ofNat (s.n >>> 4))
      .ok (true, { s with dest := dest, di := s.di + 1 })
  else if s.nIdx = 3 then
    if s.dest.length < 2 ∨ s.dest.length - 2 < s.di then .ok (false, s)
    else do
      let dest ← write s.dest s.di (UInt8.ofNat (s.n >>> 10))
      let dest ← write dest (s.di + 1) (UInt8.ofNat (s.n >>> 2))
      .ok (true, { s with dest := dest, di := s.di + 2 })
  else .ok (true, s)

def base64Decode (dest src : List UInt8) : Outcome :=
  if intMax < dest.length then .ok (-1, dest)
  else do
    let (looped, s) ← base64DecodeLoop src ⟨0, 0, zeros dest, 0⟩
    if looped then do
      let (done, s) ← base64DecodeTail s
      if done then
        if s.di ≤ dest.length then .ok (s.di, s.dest) else .error .assertion
      else .ok (-1, s.dest)
    else .ok (-1, s.dest)

/-! ## What `base64_encode` writes -/

section Encode
variable {multiline : Bool} {n : Nat} {src : List UInt8}

/-- The character for the six bits of `n` at `idx`. -/
def sextet (n idx : Nat) : UInt8 := base64EncodeTable.getD (n >>> ((3 - idx) * 6) &&& 0x3f) 0

def value3 (b0 b1 b2 : UInt8) : Nat := (b0.toNat * 256 + b1.toNat) * 256 + b2.toNat

def digits : List UInt8 → List UInt8
  | b0 :: b1 :: b2 :: src =>
      sextet (value3 b0 b1 b2) 0 :: sextet (value3 b0 b1 b2) 1 :: sextet (value3 b0 b1 b2) 2 ::
        sextet (value3 b0 b1 b2) 3 :: digits src
  | [b0, b1] =>
      [sextet ((b0.toNat * 256 + b1.toNat) * 4) 1, sextet ((b0.toNat * 256 + b1.toNat) * 4) 2,
        sextet ((b0.toNat * 256 + b1.toNat) * 4) 3]
  | [b0] => [sextet (b0.toNat * 16) 2, sextet (b0.toNat * 16) 3]
  | [] => []

def pads (srclen : Nat) : List UInt8 := List.replicate ((3 - srclen % 3) % 3) 61

theorem encodeN_eq (n idx : Nat) (o : Output) : encodeN multiline n idx o = encodeChar multiline o (sextet n idx) := by
  have six : n >>> ((3 - idx) * 6) &&& 0x3f < base64EncodeTable.length :=
    Nat.lt_of_le_of_lt Nat.and_le_right (by decide)
  rw [encodeN, read_of_lt six, sextet, List.getD_eq_getElem _ _ six]
  rfl

theorem shift_up {a : Nat} (k : Nat) (small : a < 2 ^ (32 - k)) (fits : k ≤ 32) : a <<< k % 2 ^ 32 = a * 2 ^ k := by
  have whole : a * 2 ^ k < 2 ^ 32 := by
    have grown := (Nat.mul_lt_mul_right (Nat.two_pow_pos k)).mpr small
    rwa [← Nat.pow_add, Nat.sub_add_cancel fits] at grown
  rw [Nat.shiftLeft_eq, Nat.mod_eq_of_lt whole]

theorem accumulate {a b : Nat} (k : Nat) (small : a < 2 ^ (32 - k)) (fits : k ≤ 32) (low : b < 2 ^ k) :
    a <<< k % 2 ^ 32 ||| b = a * 2 ^ k + b := by
  rw [shift_up k small fits, ← Nat.shiftLeft_eq, ← Nat.shiftLeft_add_eq_or_of_lt low]

theorem encodeLoop_byte {a nIdx : Nat} {o : Output} (b : UInt8) (small : a < 2 ^ 24) (more : nIdx + 1 ≠ 3) :
    base64EncodeLoop multiline (b :: src) a nIdx o =
      base64EncodeLoop multiline src (a * 256 + b.toNat) (nIdx + 1) o := by
  rw [base64EncodeLoop, accumulate 8 small (by decide) b.toNat_lt]
  exact if_neg more

theorem encodeLoop_flush {a : Nat} {o : Output} (b : UInt8) (small : a < 2 ^ 24) :
    base64EncodeLoop multiline (b :: src) a 2 o =
      [sextet (a * 256 + b.toNat) 0, sextet (a * 256 + b.toNat) 1, sextet (a * 256 + b.toNat) 2,
        sextet (a * 256 + b.toNat) 3].foldlM (encodeChar multiline) o >>= base64EncodeLoop multiline src 0 0 := by
  rw [base64EncodeLoop, accumulate 8 small (by decide) b.toNat_lt]
  simp only [encodeN_eq, List.foldlM_cons, List.foldlM_nil, bind_assoc, pure_bind]
  rfl

theorem base64EncodeLoop_eq (src : List UInt8) (o : Output) :
    (base64EncodeLoop multiline src 0 0 o >>= fun end' => base64EncodeTail multiline end'.1 end'.2.1 end'.2.2) =
      (digits src ++ pads src.length).foldlM (encodeChar multiline) o := by
  induction src using digits.induct generalizing o with
  | case1 b0 b1 b2 src ih =>
      have lt0 := b0.toNat_lt
      have lt1 := b1.toNat_lt
      have more : pads (b0 :: b1 :: b2 :: src).length = pads src.length := by
        have same : (src.length + 1 + 1 + 1) % 3 = src.length % 3 := by omega
        rw [pads, List.length_cons, List.length_cons, List.length_cons, same, pads]
      have first : base64EncodeLoop multiline (b0 :: b1 :: b2 :: src) 0 0 o =
          base64EncodeLoop multiline (b1 :: b2 :: src) (0 * 256 + b0.toNat) (0 + 1) o :=
        encodeLoop_byte b0 (by decide) (by decide)
      rw [first, encodeLoop_byte b1 (by omega) (by decide), encodeLoop_flush b2 (by omega), bind_assoc, more, digits,
        List.cons_append, List.cons_append, List.cons_append, List.cons_append]
      simp only [List.foldlM_cons, List.foldlM_nil, bind_assoc, pure_bind, Nat.zero_mul, Nat.zero_add, ih, value3]
  | case2 b0 b1 =>
      have lt0 := b0.toNat_lt
      have lt1 := b1.toNat_lt
      have first : base64EncodeLoop multiline (b0 :: [b1]) 0 0 o =
          base64EncodeLoop multiline [b1] (0 * 256 + b0.toNat) (0 + 1) o :=
        encodeLoop_byte b0 (by decide) (by decide)
      have up : (b0.toNat * 256 + b1.toNat) <<< 2 % 2 ^ 32 = (b0.toNat * 256 + b1.toNat) * 4 :=
        shift_up 2 (by omega) (by decide)
      rw [first, Nat.zero_mul, Nat.zero_add, encodeLoop_byte b1 (by omega) (by decide), base64EncodeLoop]
      show base64EncodeTail multiline (b0.toNat * 256 + b1.toNat) 2 o = _
      rw [base64EncodeTail, if_neg (by decide), if_pos rfl, up]
      show _ = [_, _, _, 61].foldlM (encodeChar multiline) o
      simp only [encodeN_eq, List.foldlM_cons, List.foldlM_nil, bind_pure]
  | case3 b0 =>
      have lt0 := b0.toNat_lt
      have first : base64EncodeLoop multiline (b0 :: []) 0 0 o =
          base64EncodeLoop multiline [] (0 * 256 + b0.toNat) (0 + 1) o :=
        encodeLoop_byte b0 (by decide) (by decide)
      have up : b0.toNat <<< 4 % 2 ^ 32 = b0.toNat * 16 := shift_up 4 (by omega) (by decide)
      rw [first, Nat.zero_mul, Nat.zero_add, base64EncodeLoop]
      show base64EncodeTail multiline b0.toNat 1 o = _
      rw [base64EncodeTail, if_pos rfl, up]
      show _ = [_, _, 61, 61].foldlM (encodeChar multiline) o
      simp only [encodeN_eq, List.foldlM_cons, List.foldlM_nil, bind_pure]
  | case4 => rfl

def laidOut (multiline : Bool) (linelen : Nat) (c : UInt8) : List UInt8 × Nat :=
  if multiline then
    if (linelen + 1) % 64 = 0 then ([c, 10], 0) else ([c], linelen + 1)
  else ([c], linelen)

def lines (multiline : Bool) : (linelen : Nat) → List UInt8 → List UInt8
  | _, [] => []
  | linelen, c :: cs => (laidOut multiline linelen c).1 ++ lines multiline (laidOut multiline linelen c).2 cs

def lineAfter (multiline : Bool) : (linelen : Nat) → List UInt8 → Nat
  | linelen, [] => linelen
  | linelen, c :: cs => lineAfter multiline (laidOut multiline linelen c).2 cs

/-- The text that `base64_encode` writes. -/
def base64Text (multiline : Bool) (src : List UInt8) : List UInt8 :=
  lines multiline 0 (digits src ++ pads src.length) ++
    if multiline ∧ lineAfter multiline 0 (digits src ++ pads src.length) ≠ 0 then [10] else []

theorem encodeChar_eq {w : List UInt8} {linelen : Nat} (c : UInt8)
    (room : w.length + (laidOut multiline linelen c).1.length ≤ n) :
    encodeChar multiline ⟨filled w n, w.length, linelen⟩ c =
      .ok ⟨filled (w ++ (laidOut multiline linelen c).1) n, (w ++ (laidOut multiline linelen c).1).length,
        (laidOut multiline linelen c).2⟩ := by
  have some' : w.length < n := by
    have one : 0 < (laidOut multiline linelen c).1.length := by
      rw [laidOut]
      split
      · split
        · exact Nat.succ_pos _
        · exact Nat.succ_pos _
      · exact Nat.succ_pos _
    omega
  have first := write_filled (b := c) some'
  rw [laidOut] at room ⊢
  rw [encodeChar, first]
  split
  · split
    · next multi full =>
        rw [if_pos multi, if_pos full] at room
        have second := write_filled (w := w ++ [c]) (n := n) (b := 10)
          (by rw [List.length_append]; exact room)
        rw [List.length_append, List.length_singleton, List.append_assoc] at second
        show (write (filled (w ++ [c]) n) (w.length + 1) 10 >>= fun dest => _) = _
        rw [second, List.length_append]
        rfl
    · next multi partly =>
        rw [List.length_append]
        rfl
  · next single =>
      rw [List.length_append]
      rfl

theorem encodeChars_eq (cs w : List UInt8) (linelen : Nat) (room : w.length + (lines multiline linelen cs).length ≤ n) :
    cs.foldlM (encodeChar multiline) ⟨filled w n, w.length, linelen⟩ =
      .ok ⟨filled (w ++ lines multiline linelen cs) n, (w ++ lines multiline linelen cs).length,
        lineAfter multiline linelen cs⟩ := by
  induction cs generalizing w linelen with
  | nil => rw [lines, lineAfter, List.append_nil]; rfl
  | cons c cs ih =>
      rw [lines, List.length_append] at room
      have first := @encodeChar_eq multiline n w linelen c (by omega)
      have rest := ih (w ++ (laidOut multiline linelen c).1) (laidOut multiline linelen c).2
        (by rw [List.length_append]; omega)
      rw [List.foldlM_cons, first, lines, lineAfter, ← List.append_assoc]
      exact rest

theorem length_digits (src : List UInt8) : (digits src ++ pads src.length).length = base64Len src.length := by
  rw [List.length_append, pads, List.length_replicate, base64Len, ceilDiv]
  induction src using digits.induct with
  | case1 b0 b1 b2 src ih =>
      rw [digits, List.length_cons, List.length_cons, List.length_cons, List.length_cons, List.length_cons, List.length_cons,
        List.length_cons]
      omega
  | case2 b0 b1 => simp [digits]
  | case3 b0 => simp [digits]
  | case4 => simp [digits]

theorem length_lines (cs : List UInt8) {linelen : Nat} (short : linelen < 64) :
    (lines multiline linelen cs).length = cs.length + (if multiline then (linelen + cs.length) / 64 else 0) ∧
      (multiline = true → lineAfter multiline linelen cs = (linelen + cs.length) % 64) := by
  induction cs generalizing linelen with
  | nil =>
      rw [lines, lineAfter, List.length_nil, Nat.add_zero, Nat.zero_add, Nat.div_eq_of_lt short, Nat.mod_eq_of_lt short,
        ite_self]
      exact ⟨rfl, fun _ => rfl⟩
  | cons c cs ih =>
      rw [lines, lineAfter, List.length_append, List.length_cons, laidOut]
      split
      · next multi =>
          split
          · next full =>
              obtain ⟨length, after⟩ := ih (by decide : 0 < 64)
              rw [length, after multi, if_pos multi, List.length_cons, List.length_singleton]
              exact ⟨by omega, fun _ => by omega⟩
          · next partly =>
              obtain ⟨length, after⟩ := ih (by omega : linelen + 1 < 64)
              rw [length, after multi, if_pos multi, List.length_singleton]
              exact ⟨by omega, fun _ => by omega⟩
      · next single =>
          obtain ⟨length, -⟩ := ih short
          rw [length, if_neg single, List.length_singleton]
          exact ⟨by omega, fun multi => absurd multi single⟩

theorem base64EncodeSize_eq {srclen enclen : Nat} (known : base64EncodeSize srclen multiline = .ok enclen) :
    (enclen = base64Len srclen + if multiline then ceilDiv (base64Len srclen) 64 else 0) ∧ enclen < intMax := by
  rw [base64EncodeSize] at known
  split at known
  · generalize base64Len srclen + (if multiline then ceilDiv (base64Len srclen) 64 else 0) = size at known ⊢
    simp only at known
    split at known
    · next bound =>
        obtain rfl := Except.ok.inj known
        exact ⟨rfl, bound.1⟩
    · cases known
  · cases known

theorem length_base64Text {enclen : Nat} (known : base64EncodeSize src.length multiline = .ok enclen) :
    (base64Text multiline src).length = enclen := by
  obtain ⟨size, -⟩ := base64EncodeSize_eq known
  obtain ⟨length, after⟩ := @length_lines multiline (digits src ++ pads src.length) 0 (by decide)
  rw [base64Text, List.length_append, length, size, length_digits, ceilDiv]
  cases multiline with
  | false => rfl
  | true =>
      rw [after rfl, length_digits, if_pos rfl, if_pos rfl, Nat.zero_add]
      split
      · next last =>
          rw [List.length_singleton]
          have more := last.2
          omega
      · next none =>
          have full : base64Len src.length % 64 = 0 := by_contra fun some' => none ⟨rfl, some'⟩
          rw [List.length_nil]
          omega

theorem finishLine_eq {w : List UInt8} {linelen : Nat} (room : w.length + 1 ≤ n) :
    finishLine multiline ⟨filled w n, w.length, linelen⟩ =
      .ok ⟨filled (w ++ if multiline ∧ linelen ≠ 0 then [10] else []) n,
        (w ++ if multiline ∧ linelen ≠ 0 then [10] else []).length, linelen⟩ := by
  rw [finishLine]
  split
  · next last =>
      rw [write_filled (by exact room), List.length_append]
      rfl
  · rw [List.append_nil]

theorem base64Encode_eq {dest : List UInt8} {enclen : Nat} (known : base64EncodeSize src.length multiline = .ok enclen)
    (room : enclen < dest.length) (sane : dest.length ≤ sizeTCeiling) :
    base64Encode dest src multiline = .ok ((enclen : Nat), filled (base64Text multiline src) dest.length) := by
  have length := length_base64Text known
  obtain ⟨-, small⟩ := base64EncodeSize_eq known
  have within : (lines multiline 0 (digits src ++ pads src.length)).length ≤ enclen := by
    rw [base64Text, List.length_append] at length
    omega
  have chars := @encodeChars_eq multiline dest.length (digits src ++ pads src.length) [] 0
    (by rw [List.length_nil]; omega)
  have looped := (@base64EncodeLoop_eq multiline src ⟨filled [] dest.length, 0, 0⟩).trans chars
  rw [List.nil_append] at looped
  have nul := write_nul (w := base64Text multiline src) (n := dest.length) (by omega)
  have line : finishLine multiline ⟨filled (lines multiline 0 (digits src ++ pads src.length)) dest.length,
      (lines multiline 0 (digits src ++ pads src.length)).length,
      lineAfter multiline 0 (digits src ++ pads src.length)⟩ =
        .ok ⟨filled (base64Text multiline src) dest.length, (base64Text multiline src).length,
          lineAfter multiline 0 (digits src ++ pads src.length)⟩ := finishLine_eq (by omega)
  rw [base64Encode, known]
  refine (if_neg (by omega)).trans ?_
  rw [zeros_eq]
  cases loop : base64EncodeLoop multiline src 0 0 ⟨filled [] dest.length, 0, 0⟩ with
  | error e => rw [loop] at looped; cases looped
  | ok last =>
      obtain ⟨a, nIdx, o⟩ := last
      rw [loop] at looped
      have tail : base64EncodeTail multiline a nIdx o = _ := looped
      show (base64EncodeTail multiline a nIdx o >>= fun o => finishLine multiline o >>= fun o => _) = _
      rw [tail]
      show (finishLine multiline _ >>= fun o => _) = _
      rw [line]
      show (if (base64Text multiline src).length = enclen then _ else _ : Outcome) = _
      rw [if_pos length]
      show (write _ (base64Text multiline src).length 0 >>= fun dest => _) = _
      rw [nul]
      rfl

end Encode

/-! ## Decoding what was encoded -/

section Decode
variable {n : Nat} {w src t t' : List UInt8} {s : Input}

theorem table_digit : ∀ v < 64, base64DecodeTable (base64EncodeTable.getD v 0) = .bits v ∧
    base64EncodeTable.getD v 0 ≠ 0 ∧ base64EncodeTable.getD v 0 ≠ 61 ∧ base64EncodeTable.getD v 0 ≠ 10 := by
  decide +kernel

/-- The six bits of `n` at `idx`. -/
def bitsAt (n idx : Nat) : Nat := n / 2 ^ ((3 - idx) * 6) % 64

theorem sextet_eq (n idx : Nat) : sextet n idx = base64EncodeTable.getD (bitsAt n idx) 0 := by
  have mask : n >>> ((3 - idx) * 6) &&& 0x3f = bitsAt n idx := by
    rw [bitsAt, Nat.shiftRight_eq_div_pow]
    exact Nat.and_two_pow_sub_one_eq_mod _ 6
  rw [sextet, mask]

theorem bitsAt_lt (n idx : Nat) : bitsAt n idx < 64 := Nat.mod_lt _ (by decide)

theorem sextet_bits (n idx : Nat) : base64DecodeTable (sextet n idx) = .bits (bitsAt n idx) := by
  rw [sextet_eq]
  exact (table_digit _ (bitsAt_lt n idx)).1

theorem sextet_black (n idx : Nat) : sextet n idx ≠ 0 ∧ sextet n idx ≠ 61 ∧ sextet n idx ≠ 10 := by
  rw [sextet_eq]
  exact (table_digit _ (bitsAt_lt n idx)).2

theorem decodeLoop_congr (same : ∀ s, base64DecodeLoop t s = base64DecodeLoop t' s) (cs : List UInt8) (s : Input) :
    base64DecodeLoop (cs ++ t) s = base64DecodeLoop (cs ++ t') s := by
  induction cs generalizing s with
  | nil => exact same s
  | cons c cs ih => simp only [List.cons_append, base64DecodeLoop, ih]

theorem decodeLoop_newline (t : List UInt8) (s : Input) : base64DecodeLoop (10 :: t) s = base64DecodeLoop t s := by
  rw [base64DecodeLoop]
  rfl

theorem decodeLoop_lines {multiline : Bool} (cs : List UInt8) (linelen : Nat) (s : Input) :
    base64DecodeLoop (lines multiline linelen cs ++ t) s = base64DecodeLoop (cs ++ t) s := by
  induction cs generalizing linelen s with
  | nil => rfl
  | cons c cs ih =>
      have rest : ∀ s, base64DecodeLoop ((laidOut multiline linelen c).1.tail ++ lines multiline (laidOut multiline linelen c).2 cs ++ t) s =
          base64DecodeLoop (cs ++ t) s := by
        intro s
        rw [laidOut]
        split
        · split
          · exact (decodeLoop_newline _ s).trans (ih 0 s)
          · exact ih (linelen + 1) s
        · exact ih linelen s
      have head : (laidOut multiline linelen c).1 = c :: (laidOut multiline linelen c).1.tail := by
        rw [laidOut]
        split
        · split <;> rfl
        · rfl
      rw [lines, head]
      exact decodeLoop_congr rest [c] s

theorem decodeLoop_text {multiline : Bool} (src : List UInt8) (s : Input) :
    base64DecodeLoop (base64Text multiline src) s = base64DecodeLoop (digits src) s := by
  have tail : ∀ s, base64DecodeLoop (if multiline ∧ lineAfter multiline 0 (digits src ++ pads src.length) ≠ 0 then [10] else []) s =
      base64DecodeLoop [] s := by
    intro s
    split
    · exact decodeLoop_newline [] s
    · rfl
  rw [base64Text, decodeLoop_lines, decodeLoop_congr tail, List.append_nil]
  have ends : ∀ s, base64DecodeLoop (pads src.length) s = base64DecodeLoop [] s := by
    intro s
    rw [pads]
    generalize (3 - src.length % 3) % 3 = k
    cases k with
    | zero => rfl
    | succ k => rfl
  exact (decodeLoop_congr ends (digits src) s).trans (by rw [List.append_nil])

theorem decodeLoop_bits {c : UInt8} {v a nIdx di : Nat} {dest : List UInt8} (digit : base64DecodeTable c = .bits v)
    (low : v < 64) (small : a < 2 ^ 26) (more : nIdx + 1 ≠ 4) :
    base64DecodeLoop (c :: t) ⟨a, nIdx, dest, di⟩ = base64DecodeLoop t ⟨a * 64 + v, nIdx + 1, dest, di⟩ := by
  rw [base64DecodeLoop, digit]
  simp only [if_neg more]
  rw [accumulate 6 small (by decide) low]
  rfl

theorem bytes_of_value (b0 b1 b2 : UInt8) :
    UInt8.ofNat (value3 b0 b1 b2 >>> 16) = b0 ∧ UInt8.ofNat (value3 b0 b1 b2 >>> 8 &&& 0xff) = b1 ∧
      UInt8.ofNat (value3 b0 b1 b2 &&& 0xff) = b2 := by
  have lt0 := b0.toNat_lt
  have lt1 := b1.toNat_lt
  have lt2 := b2.toNat_lt
  have mask : ∀ m : Nat, m &&& 0xff = m % 256 := fun m => Nat.and_two_pow_sub_one_eq_mod m 8
  refine ⟨byte_of_symbols _ ?_, byte_of_symbols _ ?_, byte_of_symbols _ ?_⟩
  · rw [Nat.shiftRight_eq_div_pow, value3]
    omega
  · rw [mask, Nat.shiftRight_eq_div_pow, value3]
    omega
  · rw [mask, value3]
    omega

theorem decodeLoop_flush {c : UInt8} {v a : Nat} (digit : base64DecodeTable c = .bits v) (low : v < 64)
    (small : a < 2 ^ 26) (room : w.length + 3 ≤ n) (b0 b1 b2 : UInt8) (value : a * 64 + v = value3 b0 b1 b2) :
    base64DecodeLoop (c :: t) ⟨a, 3, filled w n, w.length⟩ =
      base64DecodeLoop t ⟨0, 0, filled (w ++ [b0, b1, b2]) n, (w ++ [b0, b1, b2]).length⟩ := by
  obtain ⟨is0, is1, is2⟩ := bytes_of_value b0 b1 b2
  have first := write_filled (w := w) (n := n) (b := b0) (by omega)
  have second := write_filled (w := w ++ [b0]) (n := n) (b := b1)
    (by rw [List.length_append, List.length_singleton]; omega)
  have third := write_filled (w := w ++ [b0] ++ [b1]) (n := n) (b := b2)
    (by rw [List.length_append, List.length_append, List.length_singleton, List.length_singleton]; omega)
  rw [List.length_append, List.length_singleton] at second
  rw [List.length_append, List.length_append, List.length_singleton, List.length_singleton] at third
  have sum : a <<< 6 % 2 ^ 32 ||| v = value3 b0 b1 b2 := (accumulate 6 small (by decide) low).trans value
  have width : (filled w n).length = n := length_filled (by omega)
  have fits : ¬ ((filled w n).length < 3 ∨ (filled w n).length - 3 < w.length) := by rw [width]; omega
  rw [base64DecodeLoop, digit]
  simp only [sum, is0, is1, is2]
  refine (if_pos trivial).trans ((if_neg fits).trans ?_)
  rw [first]
  show (write (filled (w ++ [b0]) n) (w.length + 1) b1 >>= fun dest => _) = _
  rw [second]
  show (write (filled (w ++ [b0] ++ [b1]) n) (w.length + 2) b2 >>= fun dest => _) = _
  rw [third, List.append_assoc, List.append_assoc, List.length_append]
  rfl

theorem decodeLoop_group (b0 b1 b2 : UInt8) (room : w.length + 3 ≤ n) :
    base64DecodeLoop (sextet (value3 b0 b1 b2) 0 :: sextet (value3 b0 b1 b2) 1 :: sextet (value3 b0 b1 b2) 2 ::
        sextet (value3 b0 b1 b2) 3 :: t) ⟨0, 0, filled w n, w.length⟩ =
      base64DecodeLoop t ⟨0, 0, filled (w ++ [b0, b1, b2]) n, (w ++ [b0, b1, b2]).length⟩ := by
  have small : value3 b0 b1 b2 < 2 ^ 24 := by
    have lt0 := b0.toNat_lt
    have lt1 := b1.toNat_lt
    have lt2 := b2.toNat_lt
    rw [value3]
    omega
  generalize value : value3 b0 b1 b2 = m at small
  have low := bitsAt_lt m
  have whole : ((bitsAt m 0 * 64 + bitsAt m 1) * 64 + bitsAt m 2) * 64 + bitsAt m 3 = m := by
    simp only [bitsAt]
    omega
  have low0 := low 0
  have low1 := low 1
  have low2 := low 2
  rw [decodeLoop_bits (sextet_bits m 0) (low 0) (by decide) (by decide),
    decodeLoop_bits (sextet_bits m 1) (low 1) (by omega) (by decide),
    decodeLoop_bits (sextet_bits m 2) (low 2) (by omega) (by decide),
    decodeLoop_flush (sextet_bits m 3) (low 3) (by omega) room b0 b1 b2 (by rw [value, Nat.zero_mul, Nat.zero_add]; exact whole)]

theorem decodeTail_two (m : Nat) (room : w.length + 1 ≤ n) : base64DecodeTail ⟨m, 2, filled w n, w.length⟩ =
    .ok (true, ⟨m, 2, filled (w ++ [UInt8.ofNat (m >>> 4)]) n, w.length + 1⟩) := by
  have width : (filled w n).length = n := length_filled (by omega)
  have fits : ¬ ((filled w n).length < 1 ∨ (filled w n).length - 1 < w.length) := by rw [width]; omega
  have first := write_filled (w := w) (n := n) (b := UInt8.ofNat (m >>> 4)) (by omega)
  refine (if_neg (show ¬ (2 : Nat) = 1 by decide)).trans ((if_pos rfl).trans ((if_neg fits).trans ?_))
  rw [first]
  rfl

theorem decodeTail_three (m : Nat) (room : w.length + 2 ≤ n) : base64DecodeTail ⟨m, 3, filled w n, w.length⟩ =
    .ok (true, ⟨m, 3, filled (w ++ [UInt8.ofNat (m >>> 10), UInt8.ofNat (m >>> 2)]) n, w.length + 2⟩) := by
  have width : (filled w n).length = n := length_filled (by omega)
  have fits : ¬ ((filled w n).length < 2 ∨ (filled w n).length - 2 < w.length) := by rw [width]; omega
  have first := write_filled (w := w) (n := n) (b := UInt8.ofNat (m >>> 10)) (by omega)
  have second := write_filled (w := w ++ [UInt8.ofNat (m >>> 10)]) (n := n) (b := UInt8.ofNat (m >>> 2))
    (by rw [List.length_append, List.length_singleton]; omega)
  rw [List.length_append, List.length_singleton, List.append_assoc] at second
  refine (if_neg (show ¬ (3 : Nat) = 1 by decide)).trans ((if_neg (show ¬ (3 : Nat) = 2 by decide)).trans
    ((if_pos rfl).trans ((if_neg fits).trans ?_)))
  rw [first]
  exact congrArg (· >>= fun dest => Except.ok (true, (⟨m, 3, dest, w.length + 2⟩ : Input))) second

theorem decode_digits (src w : List UInt8) (room : w.length + src.length ≤ n) :
    ∃ s, (base64DecodeLoop (digits src) ⟨0, 0, filled w n, w.length⟩ >>= fun looped =>
        if looped.1 then base64DecodeTail looped.2 else .ok looped) = .ok (true, s) ∧
      s.dest = filled (w ++ src) n ∧ s.di = (w ++ src).length := by
  induction src using digits.induct generalizing w with
  | case1 b0 b1 b2 src ih =>
      rw [List.length_cons, List.length_cons, List.length_cons] at room
      rw [digits, decodeLoop_group b0 b1 b2 (by omega)]
      obtain ⟨s, decoded, dest, di⟩ := ih (w ++ [b0, b1, b2]) (by rw [List.length_append]; simp only [List.length_cons, List.length_nil]; omega)
      rw [List.append_assoc] at dest di
      exact ⟨s, decoded, dest, di⟩
  | case2 b0 b1 =>
      have room2 : w.length + 2 ≤ n := room
      have lt0 := b0.toNat_lt
      have lt1 := b1.toNat_lt
      have is0 : UInt8.ofNat (((b0.toNat * 256 + b1.toNat) * 4) >>> 10) = b0 :=
        byte_of_symbols _ (by rw [Nat.shiftRight_eq_div_pow]; omega)
      have is1 : UInt8.ofNat (((b0.toNat * 256 + b1.toNat) * 4) >>> 2) = b1 :=
        byte_of_symbols _ (by rw [Nat.shiftRight_eq_div_pow]; omega)
      have small : (b0.toNat * 256 + b1.toNat) * 4 < 2 ^ 18 := by omega
      rw [digits]
      generalize (b0.toNat * 256 + b1.toNat) * 4 = m at is0 is1 small
      have low := bitsAt_lt m
      have whole : (bitsAt m 1 * 64 + bitsAt m 2) * 64 + bitsAt m 3 = m := by
        simp only [bitsAt]
        omega
      have low1 := low 1
      have low2 := low 2
      rw [decodeLoop_bits (sextet_bits m 1) (low 1) (by decide) (by decide),
        decodeLoop_bits (sextet_bits m 2) (low 2) (by omega) (by decide),
        decodeLoop_bits (sextet_bits m 3) (low 3) (by omega) (by decide), Nat.zero_mul, Nat.zero_add, whole]
      have tail := decodeTail_three m room2
      rw [is0, is1] at tail
      exact ⟨_, tail, rfl, by rw [List.length_append]; rfl⟩
  | case3 b0 =>
      have room1 : w.length + 1 ≤ n := room
      have lt0 := b0.toNat_lt
      have is0 : UInt8.ofNat ((b0.toNat * 16) >>> 4) = b0 :=
        byte_of_symbols _ (by rw [Nat.shiftRight_eq_div_pow]; omega)
      have small : b0.toNat * 16 < 2 ^ 12 := by omega
      rw [digits]
      generalize b0.toNat * 16 = m at is0 small
      have low := bitsAt_lt m
      have whole : bitsAt m 2 * 64 + bitsAt m 3 = m := by
        simp only [bitsAt]
        omega
      have low2 := low 2
      rw [decodeLoop_bits (sextet_bits m 2) (low 2) (by decide) (by decide),
        decodeLoop_bits (sextet_bits m 3) (low 3) (by omega) (by decide), Nat.zero_mul, Nat.zero_add, whole]
      have tail := decodeTail_two m room1
      rw [is0] at tail
      exact ⟨_, tail, rfl, by rw [List.length_append]; rfl⟩
  | case4 => exact ⟨_, rfl, by rw [List.append_nil], by rw [List.append_nil]⟩

theorem base64Decode_eq {back text : List UInt8} (same : ∀ s, base64DecodeLoop text s = base64DecodeLoop (digits src) s)
    (room : src.length ≤ back.length) (sane : back.length ≤ intMax) :
    base64Decode back text = .ok ((src.length : Nat), filled src back.length) := by
  obtain ⟨s, decoded, dest, di⟩ := decode_digits (n := back.length) src [] (by rw [List.length_nil, Nat.zero_add]; exact room)
  rw [List.nil_append] at dest di
  rw [base64Decode, if_neg (by omega), same, zeros_eq]
  change (base64DecodeLoop (digits src) ⟨0, 0, filled [] back.length, 0⟩ >>= _) = _ at decoded
  cases loop : base64DecodeLoop (digits src) ⟨0, 0, filled [] back.length, 0⟩ with
  | error e => rw [loop] at decoded; cases decoded
  | ok looped =>
      obtain ⟨more, s1⟩ := looped
      rw [loop] at decoded
      cases more with
      | false => cases Prod.mk.inj (Except.ok.inj decoded) |>.1
      | true =>
          have tail : base64DecodeTail s1 = .ok (true, s) := decoded
          show (base64DecodeTail s1 >>= _) = _
          rw [tail]
          show (if s.di ≤ back.length then Except.ok ((s.di : Int), s.dest) else _) = _
          rw [dest, di, if_pos room]

/-! ## The text without padding -/

theorem digits_black (src : List UInt8) : ∀ c ∈ digits src, c ≠ 0 ∧ c ≠ 61 ∧ c ≠ 10 := by
  induction src using digits.induct with
  | case1 b0 b1 b2 src ih =>
      intro c inside
      rw [digits] at inside
      simp only [List.mem_cons] at inside
      obtain rfl | rfl | rfl | rfl | later := inside
      · exact sextet_black _ _
      · exact sextet_black _ _
      · exact sextet_black _ _
      · exact sextet_black _ _
      · exact ih c later
  | case2 b0 b1 =>
      intro c inside
      simp only [digits, List.mem_cons, List.not_mem_nil, or_false] at inside
      obtain rfl | rfl | rfl := inside
      · exact sextet_black _ _
      · exact sextet_black _ _
      · exact sextet_black _ _
  | case3 b0 =>
      intro c inside
      simp only [digits, List.mem_cons, List.not_mem_nil, or_false] at inside
      obtain rfl | rfl := inside
      · exact sextet_black _ _
      · exact sextet_black _ _
  | case4 => exact fun c inside => absurd inside (List.not_mem_nil (a := c))

theorem nopadLoop_round {dest : List UInt8} {inn : Nat} {c : UInt8} (here : dest[inn]? = some c) (fuel out : Nat) :
    nopadLoop (fuel + 1) dest inn out =
      if c = 0 then .ok (dest, out)
      else if c = 61 ∨ c = 10 then nopadLoop fuel dest (inn + 1) out
      else write dest out c >>= fun dest => nopadLoop fuel dest (inn + 1) (out + 1) := by
  rw [nopadLoop, read, here]
  rfl

theorem nopadLoop_keep (cs pre post : List UInt8) (fuel : Nat) (black : ∀ c ∈ cs, c ≠ 0 ∧ c ≠ 61 ∧ c ≠ 10) :
    nopadLoop (cs.length + fuel) (pre ++ cs ++ post) pre.length pre.length =
      nopadLoop fuel (pre ++ cs ++ post) (pre ++ cs).length (pre ++ cs).length := by
  induction cs generalizing pre with
  | nil => rw [List.length_nil, Nat.zero_add, List.append_nil]
  | cons c cs ih =>
      obtain ⟨notNul, notPad, notLine⟩ := black c List.mem_cons_self
      have rest := ih (pre ++ [c]) fun d inside => black d (List.mem_cons_of_mem c inside)
      have whole : pre ++ [c] ++ cs = pre ++ c :: cs := by rw [List.append_assoc, List.singleton_append]
      rw [whole, List.length_append, List.length_singleton] at rest
      have here : (pre ++ c :: cs ++ post)[pre.length]? = some c := by
        rw [List.append_assoc, List.getElem?_append_right (Nat.le_refl _), Nat.sub_self]
        rfl
      have inside : pre.length < (pre ++ c :: cs ++ post).length := (List.getElem?_eq_some_iff.mp here).1
      have put : write (pre ++ c :: cs ++ post) pre.length c = .ok (pre ++ c :: cs ++ post) := by
        rw [write_of_lt inside, List.append_assoc, List.set_append_right _ _ (Nat.le_refl _), Nat.sub_self, List.cons_append,
          List.set_cons_zero]
      rw [List.length_cons, Nat.add_right_comm, nopadLoop_round here, if_neg notNul, if_neg (not_or.mpr ⟨notPad, notLine⟩), put]
      exact rest

theorem nopadLoop_skip (k : Nat) (pre post : List UInt8) (fuel out : Nat) :
    nopadLoop (k + fuel) (pre ++ List.replicate k 61 ++ post) pre.length out =
      nopadLoop fuel (pre ++ List.replicate k 61 ++ post) (pre.length + k) out := by
  induction k generalizing pre with
  | zero => rw [Nat.zero_add, Nat.add_zero]
  | succ k ih =>
      have rest := ih (pre ++ [61])
      have whole : pre ++ [61] ++ List.replicate k 61 = pre ++ List.replicate (k + 1) 61 := by
        rw [List.append_assoc, List.singleton_append, ← List.replicate_succ]
      rw [whole, List.length_append, List.length_singleton] at rest
      have here : (pre ++ List.replicate (k + 1) 61 ++ post)[pre.length]? = some 61 := by
        rw [List.append_assoc, List.getElem?_append_right (Nat.le_refl _), Nat.sub_self]
        rfl
      rw [Nat.add_right_comm, nopadLoop_round here, if_neg (by decide), if_pos (by decide), rest, Nat.add_assoc,
        Nat.add_comm 1 k]

theorem base64EncodeNopad_eq {dest : List UInt8} {enclen : Nat} (known : base64EncodeSize src.length false = .ok enclen)
    (room : enclen < dest.length) (sane : dest.length ≤ sizeTCeiling) :
    ∃ out, base64EncodeNopad dest src = .ok (((digits src).length : Nat), out) ∧ Holds out (digits src) ∧
      out.length = dest.length := by
  have length := length_base64Text known
  have encoded := base64Encode_eq known room sane
  have notNul : 0 ∉ digits src := fun inside => (digits_black src 0 inside).1 rfl
  have flat (cs : List UInt8) (linelen : Nat) : lines false linelen cs = cs := by
    induction cs generalizing linelen with
    | nil => rfl
    | cons c cs ih => exact congrArg (c :: ·) (ih linelen)
  have single : base64Text false src = digits src ++ pads src.length := by
    rw [base64Text, flat, if_neg fun both => absurd both.1 (by decide), List.append_nil]
  obtain ⟨post, buffer⟩ : ∃ post, filled (base64Text false src) dest.length = digits src ++ pads src.length ++ 0 :: post := by
    rw [single] at length ⊢
    refine ⟨List.replicate (dest.length - enclen - 1) 0, ?_⟩
    rw [filled, length, ← List.replicate_succ]
    congr 2
    omega
  have width : (digits src ++ pads src.length ++ 0 :: post).length = dest.length := by
    rw [← buffer, length_filled (by omega)]
  rw [single] at length
  rw [base64EncodeNopad, encoded, buffer]
  by_cases empty : enclen = 0
  · have none : digits src = [] ∧ pads src.length = [] := by
      rw [empty, List.length_append] at length
      exact ⟨List.length_eq_zero_iff.mp (by omega), List.length_eq_zero_iff.mp (by omega)⟩
    refine ⟨0 :: post, ?_, ⟨notNul, post, by rw [none.1]; rfl⟩, by rw [none.1, none.2] at width; exact width⟩
    show (if (enclen : Int) ≤ 0 then _ else _ : Outcome) = _
    rw [if_pos (by omega), empty, none.1, none.2]
    rfl
  · obtain ⟨-, small⟩ := base64EncodeSize_eq known
    have lengths : (digits src).length + (pads src.length).length = enclen := by rw [← List.length_append, length]
    have nul : (digits src ++ pads src.length ++ 0 :: post)[enclen]? = some 0 := by
      rw [← length, List.getElem?_append_right (Nat.le_refl _), Nat.sub_self]
      rfl
    have rounds : dest.length + 1 = (digits src).length + ((pads src.length).length + (post.length + 1 + 1)) := by
      rw [← width, List.length_append, List.length_append, List.length_cons]
      omega
    have keep := nopadLoop_keep (digits src) [] (pads src.length ++ 0 :: post)
      ((pads src.length).length + (post.length + 1 + 1)) (digits_black src)
    have skip := nopadLoop_skip (pads src.length).length (digits src) (0 :: post) (post.length + 1 + 1) (digits src).length
    have same : List.replicate (pads src.length).length 61 = pads src.length := by rw [pads, List.length_replicate]
    rw [List.nil_append, ← rounds, ← List.append_assoc] at keep
    rw [same, lengths, nopadLoop_round nul, if_pos rfl] at skip
    have loop : nopadLoop (dest.length + 1) (digits src ++ pads src.length ++ 0 :: post) 0 0 =
        .ok (digits src ++ pads src.length ++ 0 :: post, (digits src).length) := keep.trans skip
    obtain ⟨c, rest, next⟩ : ∃ c rest, pads src.length ++ 0 :: post = c :: rest := by
      cases pads src.length with
      | nil => exact ⟨_, _, rfl⟩
      | cons c cs => exact ⟨_, _, rfl⟩
    have put : write (digits src ++ pads src.length ++ 0 :: post) (digits src).length 0 = .ok (digits src ++ 0 :: rest) := by
      rw [write_of_lt (by rw [width]; omega), List.append_assoc, List.set_append_right _ _ (Nat.le_refl _), Nat.sub_self,
        next, List.set_cons_zero]
    refine ⟨digits src ++ 0 :: rest, ?_, ⟨notNul, rest, rfl⟩, ?_⟩
    · show (if (enclen : Int) ≤ 0 then _ else _ : Outcome) = _
      rw [if_neg (by omega), if_pos ⟨by rw [width]; omega, by rw [Int.toNat_natCast]; exact nul⟩, width, loop]
      show (write _ (digits src).length 0 >>= fun dest => _) = _
      rw [put]
      exact if_pos (by omega)
    · rw [← width, List.append_assoc, next, List.length_append, List.length_append, List.length_cons, List.length_cons]

/-! ## No decoder leaves its buffers -/

theorem base64DecodeLoop_safe (src : List UInt8) (s : Input) (inside : s.di ≤ s.dest.length) :
    ∃ more s', base64DecodeLoop src s = .ok (more, s') ∧ s'.dest.length = s.dest.length ∧ s'.di ≤ s'.dest.length := by
  induction src generalizing s with
  | nil => exact ⟨true, s, rfl, rfl, inside⟩
  | cons c src ih =>
      rw [base64DecodeLoop]
      cases base64DecodeTable c with
      | x => exact ⟨false, s, rfl, rfl, inside⟩
      | sp => exact ih s inside
      | pad => exact ⟨true, s, rfl, rfl, inside⟩
      | bits v =>
          simp only
          split
          · split
            · exact ⟨false, s, rfl, rfl, inside⟩
            · next fits =>
                generalize s.n <<< 6 % 2 ^ 32 ||| v = m
                rw [write_of_lt (by omega)]
                show ∃ more s', (write _ (s.di + 1) _ >>= fun dest => _) = .ok (more, s') ∧ _
                rw [write_of_lt (by rw [List.length_set]; omega)]
                show ∃ more s', (write _ (s.di + 2) _ >>= fun dest => _) = .ok (more, s') ∧ _
                rw [write_of_lt (by rw [List.length_set, List.length_set]; omega)]
                obtain ⟨more, s', decoded, width, within⟩ := ih
                  ⟨0, 0, ((s.dest.set s.di (UInt8.ofNat (m >>> 16))).set (s.di + 1) (UInt8.ofNat (m >>> 8 &&& 0xff))).set
                    (s.di + 2) (UInt8.ofNat (m &&& 0xff)), s.di + 3⟩
                  (by simp only [List.length_set]; omega)
                simp only [List.length_set] at width
                exact ⟨more, s', decoded, width, within⟩
          · exact ih ⟨_, _, s.dest, s.di⟩ inside

theorem base64DecodeTail_safe (s : Input) (inside : s.di ≤ s.dest.length) :
    ∃ done s', base64DecodeTail s = .ok (done, s') ∧ s'.dest.length = s.dest.length ∧ s'.di ≤ s'.dest.length := by
  rw [base64DecodeTail]
  split
  · exact ⟨false, s, rfl, rfl, inside⟩
  split
  · split
    · exact ⟨false, s, rfl, rfl, inside⟩
    · next fits =>
        rw [write_of_lt (by omega)]
        exact ⟨true, _, rfl, List.length_set, by simp only [List.length_set]; omega⟩
  split
  · split
    · exact ⟨false, s, rfl, rfl, inside⟩
    · next fits =>
        rw [write_of_lt (by omega)]
        show ∃ done s', (write _ (s.di + 1) _ >>= fun dest => _) = .ok (done, s') ∧ _
        rw [write_of_lt (by rw [List.length_set]; omega)]
        exact ⟨true, _, rfl, by simp only [List.length_set], by simp only [List.length_set]; omega⟩
  · exact ⟨true, s, rfl, rfl, inside⟩

theorem base64Decode_safe (dest src : List UInt8) :
    ∃ ret out, base64Decode dest src = .ok (ret, out) ∧ out.length = dest.length := by
  rw [base64Decode]
  split
  · exact ⟨-1, dest, rfl, rfl⟩
  have width : (zeros dest).length = dest.length := List.length_replicate
  obtain ⟨more, s, looped, kept, within⟩ := base64DecodeLoop_safe src ⟨0, 0, zeros dest, 0⟩ (Nat.zero_le _)
  rw [looped]
  cases more with
  | false => exact ⟨-1, s.dest, rfl, kept.trans width⟩
  | true =>
      obtain ⟨done, s', tail, same, still⟩ := base64DecodeTail_safe s within
      show ∃ ret out, (base64DecodeTail s >>= _) = .ok (ret, out) ∧ _
      rw [tail]
      have length : s'.dest.length = dest.length := same.trans (kept.trans width)
      cases done with
      | false => exact ⟨-1, s'.dest, rfl, length⟩
      | true => exact ⟨s'.di, s'.dest, if_pos (length ▸ still), length⟩

end Decode

/-! ## The codecs -/

/-- A text of the size, without NUL, that `decode` turns into the source in every destination with room for it. -/
structure TextOf (decode : List UInt8 → List UInt8 → Outcome) (limit : Nat) (src : List UInt8) (size : Nat)
    (text : List UInt8) : Prop where
  length : text.length = size
  black : 0 ∉ text
  decoded : ∀ back : List UInt8, src.length ≤ back.length → back.length ≤ limit →
    decode back text = .ok ((src.length : Nat), filled src back.length)

theorem base64Text_black (multiline : Bool) (src : List UInt8) : 0 ∉ base64Text multiline src := by
  have chars : ∀ c ∈ digits src ++ pads src.length, c ≠ 0 := by
    intro c inside
    obtain digit | pad := List.mem_append.mp inside
    · exact (digits_black src c digit).1
    · exact (List.eq_of_mem_replicate pad).symm ▸ by decide
  have laid : ∀ (cs : List UInt8) (linelen : Nat), (∀ c ∈ cs, c ≠ 0) → 0 ∉ lines multiline linelen cs := by
    intro cs
    induction cs with
    | nil => exact fun _ _ => List.not_mem_nil
    | cons c cs ih =>
        intro linelen black inside
        have notNul := black c List.mem_cons_self
        have rest := ih (laidOut multiline linelen c).2 fun d later => black d (List.mem_cons_of_mem c later)
        rw [lines, List.mem_append] at inside
        refine inside.elim (fun first => ?_) rest
        rw [laidOut] at first
        split at first
        · split at first
          · simp only [List.mem_cons, List.not_mem_nil, or_false] at first
            obtain same | same := first
            · exact notNul same.symm
            · exact absurd same (by decide)
          · exact notNul (List.mem_singleton.mp first).symm
        · exact notNul (List.mem_singleton.mp first).symm
  rw [base64Text, List.mem_append]
  refine not_or.mpr ⟨laid _ 0 chars, ?_⟩
  split
  · decide
  · exact List.not_mem_nil

theorem length_digits_eq (src : List UInt8) : (digits src).length = ceilDiv (src.length * 4) 3 := by
  have whole := length_digits src
  rw [List.length_append, pads, List.length_replicate, base64Len, ceilDiv] at whole
  rw [ceilDiv]
  omega

theorem base64Encode_small {multiline : Bool} {dest src : List UInt8} {enclen : Nat}
    (known : base64EncodeSize src.length multiline = .ok enclen) (small : dest.length ≤ enclen) :
    base64Encode dest src multiline = .ok (-1, dest) := by
  rw [base64Encode, known]
  exact if_pos (.inl (by omega))

theorem base64EncodeNopad_small {dest src : List UInt8} {enclen : Nat}
    (known : base64EncodeSize src.length false = .ok enclen) (small : dest.length ≤ enclen) :
    base64EncodeNopad dest src = .ok (-1, dest) := by
  rw [base64EncodeNopad, base64Encode_small known small]
  rfl

theorem base64Text_textOf {multiline : Bool} {src : List UInt8} {enclen : Nat}
    (known : base64EncodeSize src.length multiline = .ok enclen) :
    TextOf base64Decode intMax src enclen (base64Text multiline src) where
  length := length_base64Text known
  black := base64Text_black multiline src
  decoded _ room sane := base64Decode_eq (decodeLoop_text src) room sane

theorem digits_textOf (src : List UInt8) : TextOf base64Decode intMax src (ceilDiv (src.length * 4) 3) (digits src) where
  length := length_digits_eq src
  black := fun inside => (digits_black src 0 inside).1 rfl
  decoded _ room sane := base64Decode_eq (fun _ => rfl) room sane

theorem base32Text_textOf {src : List UInt8} {size : Nat} (known : base32EncodedSize src.length = .ok size) :
    TextOf base32Decode (sizeTCeiling - 1) src (size - 1) (base32Text src) where
  length := by rw [length_base32Text, base32EncodedSize_eq known, Nat.add_sub_cancel]
  black := base32Text_black src
  decoded _ room sane := base32Decode_eq known room (Nat.lt_of_le_of_lt sane (by decide))

theorem hexPairs_textOf (src : List UInt8) : TextOf base16Decode intMax src (2 * src.length) (src.flatMap hexPair) where
  length := length_hexPairs src
  black := hexPairs_black src
  decoded _ room sane := base16Decode_eq room sane

theorem maxsize_enough {srclen textlen size : Nat} (known : base64DecodeMaxsize textlen = .ok size)
    (long : ceilDiv (srclen * 4) 3 ≤ textlen) : srclen ≤ size := by
  rw [base64DecodeMaxsize] at known
  split at known
  · obtain rfl := Except.ok.inj known
    rw [ceilDiv] at long ⊢
    omega
  · cases known

/-- The codecs invert, with lengths as their size functions say, and their decoders stay in their buffers. -/
theorem codecs_invert (src : List UInt8) :
    (∀ multiline enclen, base64EncodeSize src.length multiline = .ok enclen →
      ∃ text, TextOf base64Decode intMax src enclen text ∧
        (∀ size, base64DecodeMaxsize enclen = .ok size → src.length ≤ size) ∧
        ∀ dest : List UInt8,
          (dest.length ≤ enclen → base64Encode dest src multiline = .ok (-1, dest)) ∧
          (enclen < dest.length → dest.length ≤ sizeTCeiling →
            base64Encode dest src multiline = .ok ((enclen : Nat), filled text dest.length))) ∧
    (∀ enclen, base64EncodeSize src.length false = .ok enclen →
      ∃ text, TextOf base64Decode intMax src (ceilDiv (src.length * 4) 3) text ∧
        (∀ size, base64DecodeMaxsize text.length = .ok size → src.length ≤ size) ∧
        ∀ dest : List UInt8,
          (dest.length ≤ enclen → base64EncodeNopad dest src = .ok (-1, dest)) ∧
          (enclen < dest.length → dest.length ≤ sizeTCeiling →
            ∃ out, base64EncodeNopad dest src = .ok ((text.length : Nat), out) ∧ Holds out text ∧ out.length = dest.length)) ∧
    (∀ size, base32EncodedSize src.length = .ok size →
      ∃ text, TextOf base32Decode (sizeTCeiling - 1) src (size - 1) text ∧
        ∀ dest : List UInt8, size ≤ dest.length → dest.length < sizeTCeiling →
          base32Encode dest src = .ok (filled text dest.length) ∧ Holds (filled text dest.length) text) ∧
    (src.length < sizeTCeiling / 2 - 1 →
      ∃ text, TextOf base16Decode intMax src (2 * src.length) text ∧
        ∀ dest : List UInt8, src.length * 2 + 1 ≤ dest.length → dest.length < sizeTCeiling →
          base16Encode dest src = .ok (filled text dest.length)) ∧
    ∀ dest text : List UInt8,
      (∃ ret out, base64Decode dest text = .ok (ret, out) ∧ out.length = dest.length) ∧
      (∃ ret out, base16Decode dest text = .ok (ret, out) ∧ out.length = dest.length) ∧
      ((∃ ret out, base32Decode dest text = .ok (ret, out) ∧ out.length = dest.length) ∨
        base32Decode dest text = .error .assertion ∧
          ¬ (text.length < sizeTCeiling / 5 ∧ text.length * 5 / 8 ≤ dest.length ∧ dest.length < sizeTCeiling)) := by
  refine ⟨fun multiline enclen known => ⟨_, base64Text_textOf known, fun size most => maxsize_enough most ?_, fun dest =>
      ⟨base64Encode_small known, base64Encode_eq known⟩⟩,
    fun enclen known => ⟨_, digits_textOf src, fun size most => maxsize_enough most ?_, fun dest =>
      ⟨base64EncodeNopad_small known, base64EncodeNopad_eq known⟩⟩,
    fun size known => ⟨_, base32Text_textOf known, fun dest room sane => ⟨base32Encode_eq known room sane, ?_⟩⟩,
    fun short => ⟨_, hexPairs_textOf src, fun dest room sane => base16Encode_eq short room sane⟩,
    fun dest text => ⟨base64Decode_safe dest text, base16Decode_safe dest text, base32Decode_safe dest text⟩⟩
  · obtain ⟨size, -⟩ := base64EncodeSize_eq known
    rw [base64Len] at size
    rw [ceilDiv] at size ⊢
    omega
  · rw [length_digits_eq]
  · have length := (base32Text_textOf known).length
    have size := base32EncodedSize_eq known
    exact holds_filled (by omega) (base32Text_black src)

end TorJet.Encoding.Binascii
