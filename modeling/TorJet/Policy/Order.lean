import Mathlib.Data.List.GetD
import Mathlib.Tactic.Ring
import TorJet.Base.Compare
import TorJet.Policy.Policies

/-!
# The order of addresses

`tor_addr_compare` orders addresses if it takes them as they are. Where it takes a mapped address for its IPv4 address,
it does not: an IPv6 address before the mapped ones comes after every IPv4 address.
-/

namespace TorJet.Policy
open Base

inductive Comparison
  | exact
  | semantic
  deriving DecidableEq

def number : List UInt8 → Nat
  | [] => 0
  | b :: bs => b.toNat * 256 ^ bs.length + number bs

/-- The first twelve bytes of `::ffff:0:0/96` -/
def mappedPrefix : List UInt8 := [0, 0, 0, 0, 0, 0, 0, 0, 0, 0, 255, 255]

def TorAddr.isV4 : TorAddr → Bool
  | .inet _ => true
  | .inet6 bytes => bytes.1.take 12 = mappedPrefix

/-- `tor_addr_to_ipv4h` or `tor_addr_to_mapped_ipv4h` -/
def TorAddr.ipv4h : TorAddr → Nat
  | .inet a => a.toNat
  | .inet6 bytes => number (bytes.1.drop 12)

/-- `v_family` in `tor_addr_compare_masked` -/
def TorAddr.vFamily (addr : TorAddr) : Nat := if addr.isV4 then 2 else addr.family

def torAddrCompareMaskedHow (addr1 addr2 : TorAddr) (mbits : UInt8) (how : Comparison) : Int :=
  if addr1.family = addr2.family then torAddrCompareMasked addr1 addr2 mbits
  else if how = .exact then tristate addr1.family addr2.family
  else if mbits = 0 then 0
  else if addr1.vFamily = addr2.vFamily then
    if addr1.family = 10 ∧ mbits ≤ 96 then 0
    else
      let mbits := min (if addr1.family = 10 then mbits.toNat - 96 else mbits.toNat) 32
      tristate (addr1.ipv4h >>> (32 - mbits)) (addr2.ipv4h >>> (32 - mbits))
  else tristate addr1.family addr2.family

def torAddrCompare (addr1 addr2 : TorAddr) (how : Comparison) : Int := torAddrCompareMaskedHow addr1 addr2 128 how

/-! ## Bytes as a number -/

section Numbers
variable {as bs : List UInt8}

theorem number_lt (bs : List UInt8) : number bs < 256 ^ bs.length := by
  induction bs with
  | nil => exact Nat.one_pos
  | cons b bs ih =>
      have byte : b.toNat + 1 ≤ 256 := b.toNat_lt
      have room := Nat.mul_le_mul_right (256 ^ bs.length) byte
      rw [number, List.length_cons, Nat.pow_succ]
      rw [Nat.add_mul] at room
      omega

theorem number_cons_lt {a b : UInt8} (length : as.length = bs.length) (less : a.toNat < b.toNat) :
    number (a :: as) < number (b :: bs) := by
  have low := number_lt as
  have room := Nat.mul_le_mul_right (256 ^ bs.length) (Nat.succ_le_of_lt less)
  rw [Nat.succ_eq_add_one, Nat.add_mul] at room
  rw [number, number, length]
  rw [length] at low
  omega

theorem torMemcmp_sign (length : as.length = bs.length) :
    (torMemcmp as bs < 0 ↔ number as < number bs) ∧ (0 < torMemcmp as bs ↔ number bs < number as) := by
  induction as generalizing bs with
  | nil =>
      rw [List.length_eq_zero_iff.mp length.symm]
      decide
  | cons a as ih =>
      cases bs with
      | nil => cases length
      | cons b bs =>
          have rest := ih (Nat.succ.inj length)
          rw [torMemcmp]
          split
          · rename_i differ
            have numbers : a.toNat ≠ b.toNat := mt UInt8.toNat_inj.mp differ
            obtain less | greater := Nat.lt_or_gt_of_ne numbers
            · have number := number_cons_lt (Nat.succ.inj length) less
              omega
            · have number := number_cons_lt (Nat.succ.inj length).symm greater
              omega
          · rename_i same
            rw [not_not.mp same, number, number, Nat.succ.inj length]
            omega

theorem number_append (as bs : List UInt8) : number (as ++ bs) = number as * 256 ^ bs.length + number bs := by
  induction as with
  | nil => simp [number]
  | cons a as ih =>
      rw [List.cons_append, number, ih, number, List.length_append, Nat.pow_add]
      rw [Nat.add_mul, Nat.mul_assoc, Nat.add_assoc]

end Numbers

/-! ## Where addresses stand -/

section Order
variable {a b : TorAddr} {S : TorAddr → Prop}

def TorAddr.whole : TorAddr → Nat
  | .inet a => a.toNat
  | .inet6 bytes => number bytes.1

def TorAddr.byFamily : TorAddr → Int
  | .inet a => a.toNat
  | .inet6 bytes => 2 ^ 32 + number bytes.1

def TorAddr.byMeaning (addr : TorAddr) : Int := if addr.isV4 then addr.ipv4h else addr.byFamily

theorem tristate_sign {m n : Nat} : (tristate m n < 0 ↔ m < n) ∧ (0 < tristate m n ↔ n < m) := by
  unfold tristate
  split
  · omega
  · split <;> omega

theorem compareInet_sign {x y : UInt32} :
    (compareInet x y 128 < 0 ↔ x.toNat < y.toNat) ∧ (0 < compareInet x y 128 ↔ y.toNat < x.toNat) := tristate_sign

theorem compareInet6_sign {x y : List UInt8} (first : x.length = 16) (second : y.length = 16) :
    (compareInet6 x y 128 < 0 ↔ number x < number y) ∧ (0 < compareInet6 x y 128 ↔ number y < number x) := by
  have sign := torMemcmp_sign (first.trans second.symm)
  have takes : x.take 16 = x ∧ y.take 16 = y := ⟨List.take_of_length_le first.le, List.take_of_length_le second.le⟩
  have whole : compareInet6 x y 128 = torMemcmp x y := by
    have bytes : min 128 128 / 8 = 16 := rfl
    have leftover : min 128 128 % 8 = 0 := rfl
    simp only [compareInet6, bytes, leftover, takes.1, takes.2]
    split
    · rfl
    · rename_i notBoth
      exact (not_not.mp (not_and.mp notBoth (by decide))).symm
  rw [whole]
  exact sign

theorem number_inj {as bs : List UInt8} (length : as.length = bs.length) (same : number as = number bs) : as = bs := by
  have sign := torMemcmp_sign length
  exact (torMemcmp_eq_zero length).mp (by omega)

def mappedStart : Nat := 0xffff00000000

theorem isV4_iff {bytes : List UInt8} (length : bytes.length = 16) :
    number (bytes.drop 12) < 2 ^ 32 ∧
      (bytes.take 12 = mappedPrefix → number bytes = mappedStart + number (bytes.drop 12)) ∧
      (bytes.take 12 ≠ mappedPrefix → number bytes < mappedStart ∨ mappedStart + 2 ^ 32 ≤ number bytes) := by
  have last : (bytes.drop 12).length = 4 := by rw [List.length_drop, length]
  have first : (bytes.take 12).length = mappedPrefix.length := by
    rw [List.length_take, length]
    rfl
  have low := number_lt (bytes.drop 12)
  have split := number_append (bytes.take 12) (bytes.drop 12)
  rw [List.take_append_drop] at split
  rw [last] at low split
  have start : number mappedPrefix = 65535 := by decide
  refine ⟨low, fun mapped => ?_, fun other => ?_⟩
  · rw [mapped, start] at split
    rw [mappedStart]
    omega
  · have differ : number (bytes.take 12) ≠ 65535 := fun same => other (number_inj first (same.trans start.symm))
    rw [mappedStart]
    omega

/-! ## Which addresses are ordered -/

def Apart (S : TorAddr → Prop) : Prop :=
  ∀ v m u, S v → S m → S u → v.family = 2 → m.family = 10 → m.isV4 = true → u.family = 10 → u.whole < mappedStart →
    v.ipv4h < m.ipv4h

theorem compare_byFamily (a b : TorAddr) :
    (torAddrCompare a b .exact < 0 ↔ a.byFamily < b.byFamily) ∧
      (0 < torAddrCompare a b .exact ↔ b.byFamily < a.byFamily) := by
  cases a with
  | inet x =>
      cases b with
      | inet y =>
          have sign := compareInet_sign (x := x) (y := y)
          show (compareInet x y 128 < 0 ↔ (x.toNat : Int) < y.toNat) ∧ (0 < compareInet x y 128 ↔ (y.toNat : Int) < x.toNat)
          omega
      | inet6 y =>
          have low := x.toNat_lt
          show ((-1 : Int) < 0 ↔ (x.toNat : Int) < 2 ^ 32 + number y.1) ∧ ((0 : Int) < -1 ↔ 2 ^ 32 + (number y.1 : Int) < x.toNat)
          omega
  | inet6 x =>
      cases b with
      | inet y =>
          have low := y.toNat_lt
          show ((1 : Int) < 0 ↔ 2 ^ 32 + (number x.1 : Int) < y.toNat) ∧ ((0 : Int) < 1 ↔ (y.toNat : Int) < 2 ^ 32 + number x.1)
          omega
      | inet6 y =>
          have sign := compareInet6_sign x.2 y.2
          show (compareInet6 x.1 y.1 128 < 0 ↔ 2 ^ 32 + (number x.1 : Int) < 2 ^ 32 + number y.1) ∧
            (0 < compareInet6 x.1 y.1 128 ↔ 2 ^ 32 + (number y.1 : Int) < 2 ^ 32 + number x.1)
          omega

theorem family_ne (x : UInt32) (y : { bytes : List UInt8 // bytes.length = 16 }) :
    (TorAddr.inet x).family ≠ (TorAddr.inet6 y).family := fun same => by cases same

theorem compare_mapped {x : UInt32} {y : { bytes : List UInt8 // bytes.length = 16 }}
    (mapped : y.1.take 12 = mappedPrefix) :
    torAddrCompare (.inet x) (.inet6 y) .semantic = tristate x.toNat (number (y.1.drop 12)) ∧
      torAddrCompare (.inet6 y) (.inet x) .semantic = tristate (number (y.1.drop 12)) x.toNat := by
  have family : (TorAddr.inet x).vFamily = (TorAddr.inet6 y).vFamily := by
    simp [TorAddr.vFamily, TorAddr.isV4, mapped]
  have differ := family_ne x y
  constructor
  · rw [torAddrCompare, torAddrCompareMaskedHow, if_neg differ, if_neg (by decide), if_neg (by decide), if_pos family]
    rfl
  · rw [torAddrCompare, torAddrCompareMaskedHow, if_neg differ.symm, if_neg (by decide), if_neg (by decide),
      if_pos family.symm]
    rfl

theorem compare_other {x : UInt32} {y : { bytes : List UInt8 // bytes.length = 16 }}
    (other : y.1.take 12 ≠ mappedPrefix) :
    torAddrCompare (.inet x) (.inet6 y) .semantic = -1 ∧ torAddrCompare (.inet6 y) (.inet x) .semantic = 1 := by
  have family : (TorAddr.inet x).vFamily ≠ (TorAddr.inet6 y).vFamily := by
    simp [TorAddr.vFamily, TorAddr.isV4, other, TorAddr.family]
  have differ := family_ne x y
  constructor
  · rw [torAddrCompare, torAddrCompareMaskedHow, if_neg differ, if_neg (by decide), if_neg (by decide), if_neg family]
    rfl
  · rw [torAddrCompare, torAddrCompareMaskedHow, if_neg differ.symm, if_neg (by decide), if_neg (by decide),
      if_neg family.symm]
    rfl

theorem compare_sameFamily {how : Comparison} (family : a.family = b.family) :
    torAddrCompare a b how = torAddrCompare a b .exact := by
  rw [torAddrCompare, torAddrCompare, torAddrCompareMaskedHow, torAddrCompareMaskedHow, if_pos family, if_pos family]

theorem byMeaning_mapped {y : { bytes : List UInt8 // bytes.length = 16 }} (mapped : y.1.take 12 = mappedPrefix) :
    (TorAddr.inet6 y).byMeaning = number (y.1.drop 12) := if_pos (decide_eq_true mapped)

theorem byMeaning_other {y : { bytes : List UInt8 // bytes.length = 16 }} (other : y.1.take 12 ≠ mappedPrefix) :
    (TorAddr.inet6 y).byMeaning = 2 ^ 32 + number y.1 := if_neg (by rw [TorAddr.isV4, decide_eq_true_eq]; exact other)

theorem compare_byMeaning (high : ∀ u, S u → u.family = 10 → mappedStart ≤ u.whole) (inA : S a) (inB : S b) :
    (torAddrCompare a b .semantic < 0 ↔ a.byMeaning < b.byMeaning) ∧
      (0 < torAddrCompare a b .semantic ↔ b.byMeaning < a.byMeaning) := by
  cases a with
  | inet x =>
      have low := x.toNat_lt
      have here : (TorAddr.inet x).byMeaning = x.toNat := rfl
      cases b with
      | inet y =>
          rw [compare_sameFamily (a := .inet x) (b := .inet y) rfl]
          exact compare_byFamily (.inet x) (.inet y)
      | inet6 y =>
          by_cases mapped : y.1.take 12 = mappedPrefix
          · have sign := tristate_sign (m := x.toNat) (n := number (y.1.drop 12))
            rw [(compare_mapped mapped).1, byMeaning_mapped mapped, here]
            omega
          · rw [(compare_other mapped).1, byMeaning_other mapped, here]
            omega
  | inet6 x =>
      obtain ⟨lowX, atX, offX⟩ := isV4_iff x.2
      have highX : mappedStart ≤ number x.1 := high _ inA rfl
      cases b with
      | inet y =>
          have low := y.toNat_lt
          have there : (TorAddr.inet y).byMeaning = y.toNat := rfl
          by_cases mapped : x.1.take 12 = mappedPrefix
          · have sign := tristate_sign (m := number (x.1.drop 12)) (n := y.toNat)
            rw [(compare_mapped mapped).2, byMeaning_mapped mapped, there]
            omega
          · rw [(compare_other mapped).2, byMeaning_other mapped, there]
            omega
      | inet6 y =>
          obtain ⟨lowY, atY, offY⟩ := isV4_iff y.2
          have highY : mappedStart ≤ number y.1 := high _ inB rfl
          have sign := compare_byFamily (.inet6 x) (.inet6 y)
          rw [TorAddr.byFamily, TorAddr.byFamily] at sign
          rw [compare_sameFamily (a := .inet6 x) (b := .inet6 y) rfl]
          by_cases mappedX : x.1.take 12 = mappedPrefix
          · have numberX := atX mappedX
            rw [byMeaning_mapped mappedX]
            by_cases mappedY : y.1.take 12 = mappedPrefix
            · have numberY := atY mappedY
              rw [byMeaning_mapped mappedY]
              omega
            · have numberY := offY mappedY
              rw [byMeaning_other mappedY]
              omega
          · have numberX := offX mappedX
            rw [byMeaning_other mappedX]
            by_cases mappedY : y.1.take 12 = mappedPrefix
            · have numberY := atY mappedY
              rw [byMeaning_mapped mappedY]
              omega
            · rw [byMeaning_other mappedY]
              omega

theorem compare_apart (before : ∀ v m, S v → S m → v.family = 2 → m.family = 10 → m.isV4 = true → v.ipv4h < m.ipv4h)
    (inA : S a) (inB : S b) : torAddrCompare a b .semantic = torAddrCompare a b .exact := by
  by_cases family : a.family = b.family
  · exact compare_sameFamily family
  cases a with
  | inet x =>
      cases b with
      | inet y => exact absurd rfl family
      | inet6 y =>
          by_cases mapped : y.1.take 12 = mappedPrefix
          · have less : x.toNat < number (y.1.drop 12) := before _ _ inA inB rfl rfl (decide_eq_true mapped)
            rw [(compare_mapped mapped).1, tristate, if_pos less]
            rfl
          · rw [(compare_other mapped).1]
            rfl
  | inet6 x =>
      cases b with
      | inet y =>
          by_cases mapped : x.1.take 12 = mappedPrefix
          · have less : y.toNat < number (x.1.drop 12) := before _ _ inB inA rfl rfl (decide_eq_true mapped)
            rw [(compare_mapped mapped).2, tristate, if_neg (by omega), if_neg (by omega)]
            rfl
          · rw [(compare_other mapped).2]
            rfl
      | inet6 y => exact absurd rfl family

/-- The comparison orders addresses, in the semantic mode exactly where they are apart. -/
theorem torAddrCompare_orders (how : Comparison) (S : TorAddr → Prop) :
    Orders S (torAddrCompare · · how) ↔ how = .exact ∨ Apart S := by
  cases how with
  | exact => exact iff_of_true (.of_key TorAddr.byFamily fun a b _ _ => compare_byFamily a b) (.inl rfl)
  | semantic =>
      constructor
      · intro orders
        right
        intro v m u inV inM inU isV isM mapped isU below
        obtain ⟨x, rfl⟩ : ∃ x, v = .inet x := by
          cases v with
          | inet x => exact ⟨x, rfl⟩
          | inet6 y => cases isV
        cases m with
        | inet _ => cases isM
        | inet6 y =>
            cases u with
            | inet _ => cases isU
            | inet6 z =>
                have isMapped : y.1.take 12 = mappedPrefix := of_decide_eq_true mapped
                obtain ⟨-, atY, -⟩ := isV4_iff y.2
                have notMapped : z.1.take 12 ≠ mappedPrefix := by
                  intro mappedZ
                  obtain ⟨-, atZ, -⟩ := isV4_iff z.2
                  have start := atZ mappedZ
                  have under : number z.1 < mappedStart := below
                  omega
                have start := atY isMapped
                have under : number z.1 < mappedStart := below
                have first : torAddrCompare (.inet x) (.inet6 z) .semantic < 0 := by
                  rw [(compare_other notMapped).1]
                  decide
                have second : torAddrCompare (.inet6 z) (.inet6 y) .semantic < 0 := by
                  rw [compare_sameFamily (a := .inet6 z) (b := .inet6 y) rfl, (compare_byFamily _ _).1, TorAddr.byFamily, TorAddr.byFamily]
                  omega
                have through := orders.lt_of_lt_of_le inV inU inM first second.le
                rw [(compare_mapped isMapped).1] at through
                exact tristate_sign.1.mp through
      · rintro (exact | apart)
        · cases exact
        by_cases low : ∃ u, S u ∧ u.family = 10 ∧ u.whole < mappedStart
        · obtain ⟨u, inU, isU, below⟩ := low
          have before : ∀ v m, S v → S m → v.family = 2 → m.family = 10 → m.isV4 = true → v.ipv4h < m.ipv4h :=
            fun v m inV inM isV isM mapped => apart v m u inV inM inU isV isM mapped isU below
          have exact : Orders S (torAddrCompare · · .exact) := .of_key TorAddr.byFamily fun a b _ _ => compare_byFamily a b
          exact exact.congr fun a b inA inB => compare_apart before inA inB
        · have high : ∀ u, S u → u.family = 10 → mappedStart ≤ u.whole := fun u inU isU =>
            Nat.not_lt.mp fun below => low ⟨u, inU, isU, below⟩
          exact .of_key TorAddr.byMeaning fun a b inA inB => compare_byMeaning high inA inB

end Order

/-- `::1`, `::ffff:1.2.3.4` and `1.2.3.4` each come before the next, around in a circle. -/
theorem torAddrCompare_circle : ¬ ∀ a b c : TorAddr, torAddrCompare a b .semantic ≤ 0 →
    torAddrCompare b c .semantic ≤ 0 → torAddrCompare a c .semantic ≤ 0 := by
  intro trans
  have through := trans (.inet6 ⟨List.replicate 15 0 ++ [1], rfl⟩) (.inet6 ⟨mappedPrefix ++ [1, 2, 3, 4], rfl⟩) (.inet 0x01020304)
  exact absurd (through (by decide +kernel) (by decide +kernel)) (by decide +kernel)

end TorJet.Policy

/-!
## The addresses that share a prefix

The comparison of masked addresses, as a statement about the first bits of a number.
-/

namespace TorJet.Policy

def TorAddr.width : TorAddr → Nat
  | .inet _ => 32
  | .inet6 _ => 128

def SharesPrefix (n : Nat) (a b : TorAddr) : Prop :=
  a.family = b.family ∧ a.whole >>> (a.width - n) = b.whole >>> (b.width - n)

variable {a b : TorAddr} {m n : Nat}

theorem width_of_family (family : a.family = b.family) : a.width = b.width := by
  cases a <;> cases b
  · rfl
  · cases family
  · cases family
  · rfl

theorem SharesPrefix.refl (n : Nat) (a : TorAddr) : SharesPrefix n a a := ⟨rfl, rfl⟩

theorem SharesPrefix.mono (shares : SharesPrefix n a b) (le : m ≤ n) : SharesPrefix m a b := by
  obtain ⟨family, same⟩ := shares
  have width := width_of_family family
  refine ⟨family, ?_⟩
  rw [width] at same ⊢
  exact shiftRight_eq same (by omega)

theorem sharesPrefix_width : SharesPrefix b.width a b ↔ a = b := by
  constructor
  · rintro ⟨family, same⟩
    rw [width_of_family family, Nat.sub_self, Nat.shiftRight_zero, Nat.shiftRight_zero] at same
    cases a with
    | inet x =>
        cases b with
        | inet y => exact congrArg _ (UInt32.toNat_inj.mp same)
        | inet6 y => cases family
    | inet6 x =>
        cases b with
        | inet y => cases family
        | inet6 y => exact congrArg _ (Subtype.ext (number_inj (x.2.trans y.2.symm) same))
  · rintro rfl
    exact .refl _ _

theorem number_shiftRight {bytes : List UInt8} {size k r : Nat} (all : bytes.length = size) (inside : k < size)
    (bits : r ≤ 8) :
    number bytes >>> (8 * (size - k) - r) = number (bytes.take k) * 2 ^ r + (bytes.getD k 0).toNat >>> (8 - r) := by
  subst all
  rw [List.getD_eq_getElem _ _ inside]
  have split : bytes = bytes.take k ++ (bytes[k] :: bytes.drop (k + 1)) := by
    rw [← List.drop_eq_getElem_cons inside, List.take_append_drop]
  have length : (bytes.drop (k + 1)).length = bytes.length - k - 1 := by rw [List.length_drop]; omega
  have low := number_lt (bytes.drop (k + 1))
  have shift : 8 * (bytes.length - k) - r = 8 * (bytes.length - k - 1) + (8 - r) := by omega
  have powers : 256 ^ (bytes.length - k - 1) = 2 ^ (8 * (bytes.length - k - 1)) := by rw [Nat.pow_mul]
  have whole : number bytes =
      2 ^ (8 * (bytes.length - k - 1)) * (number (bytes.take k) * 256 + bytes[k].toNat) + number (bytes.drop (k + 1)) := by
    conv_lhs => rw [split]
    rw [number_append, number, List.length_cons, length, ← powers, Nat.pow_succ]
    ring
  rw [length, powers] at low
  rw [shift, Nat.shiftRight_add, whole, Nat.shiftRight_eq_div_pow, Nat.shiftRight_eq_div_pow, Nat.shiftRight_eq_div_pow,
    Nat.mul_add_div (Nat.two_pow_pos _), Nat.div_eq_of_lt low, Nat.add_zero]
  have byte : (256 : Nat) = 2 ^ (8 - r) * 2 ^ r := by rw [← Nat.pow_add, Nat.sub_add_cancel bits]
  rw [byte, ← Nat.mul_assoc, Nat.mul_comm _ (2 ^ r), ← Nat.mul_assoc, Nat.mul_comm, Nat.mul_add_div (Nat.two_pow_pos _),
    Nat.mul_comm (2 ^ r)]

theorem byte_shiftRight {r : Nat} (byte : UInt8) (bits : r ≤ 8) : byte.toNat >>> (8 - r) < 2 ^ r := by
  rw [Nat.shiftRight_eq_div_pow, Nat.div_lt_iff_lt_mul (Nat.two_pow_pos _), ← Nat.pow_add, Nat.add_sub_cancel' bits]
  exact byte.toNat_lt

theorem mul_add_inj {p x y i j : Nat} (lowI : i < p) (lowJ : j < p) (same : x * p + i = y * p + j) : x = y ∧ i = j := by
  have pos : 0 < p := Nat.zero_lt_of_lt lowI
  have quotient := congrArg (· / p) same
  have remainder := congrArg (· % p) same
  simp only [Nat.mul_add_mod_self_right, Nat.mod_eq_of_lt lowI, Nat.mod_eq_of_lt lowJ] at remainder
  simp only [Nat.mul_comm _ p, Nat.mul_add_div pos, Nat.div_eq_of_lt lowI, Nat.div_eq_of_lt lowJ, Nat.add_zero] at quotient
  exact ⟨quotient, remainder⟩

theorem sameNet_iff : SameNet n a b ↔ SharesPrefix n a b := by
  cases a with
  | inet x =>
      cases b with
      | inet y =>
          have bits : 32 - min n 32 = 32 - n := by omega
          rw [SameNet, bits]
          exact (and_iff_right rfl).symm
      | inet6 y => exact iff_of_false id fun shares => by cases shares.1
  | inet6 x =>
      cases b with
      | inet y => exact iff_of_false id fun shares => by cases shares.1
      | inet6 y =>
          obtain ⟨x, lengthX⟩ := x
          obtain ⟨y, lengthY⟩ := y
          have family : (TorAddr.inet6 ⟨x, lengthX⟩).family = (TorAddr.inet6 ⟨y, lengthY⟩).family := rfl
          rw [SharesPrefix, and_iff_right family]
          show _ ↔ number x >>> (128 - n) = number y >>> (128 - n)
          obtain less | past := Nat.lt_or_ge n 128
          · have inside : n / 8 < 16 := by omega
            have bits : n % 8 ≤ 8 := by omega
            have shiftX := number_shiftRight lengthX inside bits
            have shiftY := number_shiftRight lengthY inside bits
            have shift : 8 * (16 - n / 8) - n % 8 = 128 - n := by omega
            rw [shift] at shiftX shiftY
            have least : min n 128 = n := by omega
            rw [SameNet, least, shiftX, shiftY]
            have lowX := byte_shiftRight (x.getD (n / 8) 0) bits
            have lowY := byte_shiftRight (y.getD (n / 8) 0) bits
            constructor
            · rintro ⟨takes, byte⟩
              rw [takes, byte]
            · intro same
              have split := mul_add_inj lowX lowY same
              refine ⟨number_inj ?_ split.1, split.2⟩
              rw [List.length_take, List.length_take, lengthX, lengthY]
          · have full : 128 - n = 0 := by omega
            have least : min n 128 = 128 := by omega
            rw [SameNet, least, full, Nat.shiftRight_zero, Nat.shiftRight_zero]
            show x.take 16 = y.take 16 ∧ (x.getD 16 0).toNat >>> 8 = (y.getD 16 0).toNat >>> 8 ↔ _
            rw [List.take_of_length_le lengthX.le, List.take_of_length_le lengthY.le]
            constructor
            · exact fun both => congrArg number both.1
            · intro same
              obtain rfl := number_inj (lengthX.trans lengthY.symm) same
              exact ⟨rfl, rfl⟩

theorem torAddrCompareMasked_sharesPrefix {mbits : UInt8} {how : Comparison} (alike : how = .exact ∨ a.family = b.family) :
    torAddrCompareMaskedHow a b mbits how = 0 ↔ SharesPrefix mbits.toNat a b := by
  rw [torAddrCompareMaskedHow]
  split
  · rw [torAddrCompareMasked_eq_zero, sameNet_iff]
  · next family =>
      rw [if_pos (alike.resolve_right family)]
      refine iff_of_false (fun zero => family (tristate_eq_zero.mp zero)) fun shares => family shares.1

end TorJet.Policy
