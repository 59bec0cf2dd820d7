import Mathlib.Algebra.Group.Int.Defs
import TorJet.Base.Rules

/-!
# Address policies

The entries of an exit policy, what they say of an address and a port, and the entries that
`exit_policy_remove_redundancies` leaves.
-/

namespace TorJet.Policy
open Base

/-- A `tor_addr_t` that is IPv4 or IPv6. -/
inductive TorAddr
  | inet (a : UInt32)
  | inet6 (bytes : { bytes : List UInt8 // bytes.length = 16 })
  deriving DecidableEq

inductive Action
  | accept
  | reject
  deriving DecidableEq

structure AddrPolicy where
  policyType : Action
  maskbits : UInt8
  addr : TorAddr
  prtMin : UInt16
  prtMax : UInt16
  deriving DecidableEq

inductive Result
  | accepted
  | rejected
  | probablyAccepted
  | probablyRejected
  deriving DecidableEq

/-- `tor_addr_family`: `AF_INET` or `AF_INET6` -/
def TorAddr.family : TorAddr → Nat
  | .inet _ => 2
  | .inet6 _ => 10

def TorAddr.isNull : TorAddr → Bool
  | .inet a => a = 0
  | .inet6 bytes => bytes.1.all (· = 0)

def tristate (a b : Nat) : Int := if a < b then -1 else if a = b then 0 else 1

/-- `tor_memcmp` of as many bytes each -/
def torMemcmp : List UInt8 → List UInt8 → Int
  | a :: as, b :: bs => if a ≠ b then (a.toNat : Int) - b.toNat else torMemcmp as bs
  | _, _ => 0

def compareInet (a1 a2 : UInt32) (mbits : Nat) : Int :=
  if mbits ≤ 0 then 0 else tristate (a1.toNat >>> (32 - min mbits 32)) (a2.toNat >>> (32 - min mbits 32))

def compareInet6 (a1 a2 : List UInt8) (mbits : Nat) : Int :=
  let mbits := min mbits 128
  let bytes := mbits / 8
  let leftoverBits := mbits % 8
  let r := torMemcmp (a1.take bytes) (a2.take bytes)
  if bytes ≠ 0 ∧ r ≠ 0 then r
  else if leftoverBits ≠ 0 then
    tristate ((a1.getD bytes 0).toNat >>> (8 - leftoverBits)) ((a2.getD bytes 0).toNat >>> (8 - leftoverBits))
  else 0

/-- `tor_addr_compare_masked` with `CMP_EXACT` -/
def torAddrCompareMasked (addr1 addr2 : TorAddr) (mbits : UInt8) : Int :=
  match addr1, addr2 with
  | .inet a1, .inet a2 => compareInet a1 a2 mbits.toNat
  | .inet6 a1, .inet6 a2 => compareInet6 a1.1 a2.1 mbits.toNat
  | addr1, addr2 => tristate addr1.family addr2.family

/-! ## What a policy says -/

def compareKnownTorAddrToAddrPolicy (addr : TorAddr) (port : UInt16) : List AddrPolicy → Result
  | [] => .accepted
  | tmpe :: policy =>
      if torAddrCompareMasked addr tmpe.addr tmpe.maskbits = 0 ∧ tmpe.prtMin ≤ port ∧ port ≤ tmpe.prtMax then
        if tmpe.policyType = .accept then .accepted else .rejected
      else compareKnownTorAddrToAddrPolicy addr port policy

def compareUnsure (mayMatch surely : AddrPolicy → Bool) (maybeAccept maybeReject : Bool) : List AddrPolicy → Result
  | [] => if maybeReject then .probablyAccepted else .accepted
  | tmpe :: policy =>
      if mayMatch tmpe then
        if surely tmpe then
          if tmpe.policyType = .accept then if maybeReject then .probablyAccepted else .accepted
          else if maybeAccept then .probablyRejected else .rejected
        else if tmpe.policyType = .reject then compareUnsure mayMatch surely maybeAccept true policy
        else compareUnsure mayMatch surely true maybeReject policy
      else compareUnsure mayMatch surely maybeAccept maybeReject policy

def compareKnownTorAddrToAddrPolicyNoport (addr : TorAddr) (policy : List AddrPolicy) : Result :=
  compareUnsure (fun tmpe => torAddrCompareMasked addr tmpe.addr tmpe.maskbits = 0)
    (fun tmpe => tmpe.prtMin ≤ 1 && 65535 ≤ tmpe.prtMax) false false policy

def compareUnknownTorAddrToAddrPolicy (port : UInt16) (policy : List AddrPolicy) : Result :=
  compareUnsure (fun tmpe => tmpe.prtMin ≤ port && port ≤ tmpe.prtMax) (fun tmpe => tmpe.maskbits = 0) false false policy

def compareTorAddrToAddrPolicy (addr : Option TorAddr) (port : UInt16) (policy : Option (List AddrPolicy)) : Result :=
  match policy with
  | none => .accepted
  | some policy =>
      match addr with
      | none => if port = 0 then .rejected else compareUnknownTorAddrToAddrPolicy port policy
      | some addr =>
          if addr.isNull then if port = 0 then .rejected else compareUnknownTorAddrToAddrPolicy port policy
          else if port = 0 then compareKnownTorAddrToAddrPolicyNoport addr policy
          else compareKnownTorAddrToAddrPolicy addr port policy

/-! ## Entries that are not needed -/

def addrPolicyCovers (a b : AddrPolicy) : Bool :=
  if a.addr.family ≠ b.addr.family then false
  else if b.maskbits < a.maskbits then false
  else if torAddrCompareMasked a.addr b.addr a.maskbits ≠ 0 then false
  else a.prtMin ≤ b.prtMin && b.prtMax ≤ a.prtMax

def addrPolicyIntersects (a b : AddrPolicy) : Bool :=
  let minbits := if a.maskbits < b.maskbits then a.maskbits else b.maskbits
  if torAddrCompareMasked a.addr b.addr minbits ≠ 0 then false
  else if a.prtMax < b.prtMin || b.prtMax < a.prtMin then false
  else true

/-- The first step of `exit_policy_remove_redundancies`: nothing of a family is left after its catch-all. -/
def killUnreachable (killV4 killV6 : Bool) : List AddrPolicy → List AddrPolicy
  | [] => []
  | ap :: dest =>
      let inet : Bool := ap.addr.family = 2
      let inet6 : Bool := ap.addr.family = 10
      if inet && killV4 || inet6 && killV6 then killUnreachable killV4 killV6 dest
      else if ap.maskbits = 0 && ap.prtMin ≤ 1 && 65535 ≤ ap.prtMax then
        ap :: killUnreachable (inet || killV4) (!inet && inet6 || killV6) dest
      else ap :: killUnreachable killV4 killV6 dest

def dropCovered (ap : AddrPolicy) (dest : List AddrPolicy) : List AddrPolicy := dest.filter (!addrPolicyCovers ap ·)

def removeCovered : List AddrPolicy → List AddrPolicy
  | [] => []
  | ap :: dest => ap :: removeCovered (dropCovered ap dest)
termination_by dest => dest.length
decreasing_by exact Nat.lt_succ_of_le (List.length_filter_le _ _)

def madeRedundant (ap : AddrPolicy) : List AddrPolicy → Bool
  | [] => false
  | tmp :: dest =>
      if ap.policyType ≠ tmp.policyType then if addrPolicyIntersects ap tmp then false else madeRedundant ap dest
      else if addrPolicyCovers tmp ap then true
      else madeRedundant ap dest

def removeRedundant : List AddrPolicy → List AddrPolicy
  | [] => []
  | ap :: dest => if madeRedundant ap dest then removeRedundant dest else ap :: removeRedundant dest

def exitPolicyRemoveRedundancies (dest : List AddrPolicy) : List AddrPolicy :=
  removeRedundant (removeCovered (killUnreachable false false dest))

/-! ## Networks -/

def SameNet (mbits : Nat) : TorAddr → TorAddr → Prop
  | .inet a, .inet b => a.toNat >>> (32 - min mbits 32) = b.toNat >>> (32 - min mbits 32)
  | .inet6 a, .inet6 b =>
      a.1.take (min mbits 128 / 8) = b.1.take (min mbits 128 / 8) ∧
        (a.1.getD (min mbits 128 / 8) 0).toNat >>> (8 - min mbits 128 % 8) =
          (b.1.getD (min mbits 128 / 8) 0).toNat >>> (8 - min mbits 128 % 8)
  | _, _ => False

section Networks
variable {a b c : TorAddr} {m n : Nat} {mbits : UInt8}

theorem tristate_eq_zero {m n : Nat} : tristate m n = 0 ↔ m = n := by
  unfold tristate
  split
  · exact iff_of_false (by decide) (by omega)
  · split
    · exact iff_of_true rfl (by assumption)
    · exact iff_of_false (by decide) (by assumption)

theorem torMemcmp_eq_zero {as bs : List UInt8} (length : as.length = bs.length) : torMemcmp as bs = 0 ↔ as = bs := by
  induction as generalizing bs with
  | nil =>
      rw [List.length_eq_zero_iff.mp length.symm]
      exact iff_of_true rfl rfl
  | cons a as ih =>
      cases bs with
      | nil => cases length
      | cons b bs =>
          rw [torMemcmp, List.cons.injEq]
          by_cases same : a = b
          · rw [if_neg (not_not.mpr same), ih (Nat.succ.inj length), and_iff_right same]
          · rw [if_pos same]
            have numbers : a.toNat ≠ b.toNat := mt UInt8.toNat_inj.mp same
            exact iff_of_false (by omega) fun both => same both.1

theorem compareInet_eq_zero {x y : UInt32} :
    compareInet x y m = 0 ↔ x.toNat >>> (32 - min m 32) = y.toNat >>> (32 - min m 32) := by
  unfold compareInet
  split
  · rename_i zero
    have whole : 32 - min m 32 = 32 := by omega
    rw [whole, Nat.shiftRight_eq_div_pow, Nat.shiftRight_eq_div_pow, Nat.div_eq_of_lt x.toNat_lt, Nat.div_eq_of_lt y.toNat_lt]
    exact iff_of_true rfl rfl
  · exact tristate_eq_zero

theorem compareInet6_eq_zero {x y : List UInt8} (length : x.length = y.length) :
    compareInet6 x y m = 0 ↔
      x.take (min m 128 / 8) = y.take (min m 128 / 8) ∧
        (x.getD (min m 128 / 8) 0).toNat >>> (8 - min m 128 % 8) = (y.getD (min m 128 / 8) 0).toNat >>> (8 - min m 128 % 8) := by
  unfold compareInet6
  dsimp only
  have same : torMemcmp (x.take (min m 128 / 8)) (y.take (min m 128 / 8)) = 0 ↔
      x.take (min m 128 / 8) = y.take (min m 128 / 8) := torMemcmp_eq_zero (by simp [length])
  by_cases bytes : min m 128 / 8 ≠ 0 ∧ torMemcmp (x.take (min m 128 / 8)) (y.take (min m 128 / 8)) ≠ 0
  · rw [if_pos bytes]
    exact iff_of_false bytes.2 fun both => bytes.2 (same.mpr both.1)
  have takes : x.take (min m 128 / 8) = y.take (min m 128 / 8) := by
    by_cases none : min m 128 / 8 = 0
    · rw [none, List.take_zero, List.take_zero]
    · exact same.mp (by_contra fun different => bytes ⟨none, different⟩)
  rw [if_neg bytes, and_iff_right takes]
  by_cases leftover : min m 128 % 8 = 0
  · rw [if_neg (not_not.mpr leftover), leftover, Nat.sub_zero, Nat.shiftRight_eq_div_pow, Nat.shiftRight_eq_div_pow,
      Nat.div_eq_of_lt (UInt8.toNat_lt _), Nat.div_eq_of_lt (UInt8.toNat_lt _)]
    exact iff_of_true rfl rfl
  · rw [if_pos leftover]
    exact tristate_eq_zero

theorem torAddrCompareMasked_eq_zero : torAddrCompareMasked a b mbits = 0 ↔ SameNet mbits.toNat a b := by
  cases a with
  | inet x =>
      cases b with
      | inet y => exact compareInet_eq_zero
      | inet6 y => exact iff_of_false (fun zero => by cases zero) id
  | inet6 x =>
      cases b with
      | inet y => exact iff_of_false (fun zero => by cases zero) id
      | inet6 y => exact compareInet6_eq_zero (x.2.trans y.2.symm)

theorem SameNet.family (same : SameNet m a b) : a.family = b.family := by
  cases a <;> cases b
  · rfl
  · exact same.elim
  · exact same.elim
  · rfl

theorem SameNet.symm (same : SameNet m a b) : SameNet m b a := by
  cases a <;> cases b
  · exact Eq.symm same
  · exact same
  · exact same
  · exact ⟨same.1.symm, same.2.symm⟩

theorem SameNet.trans (first : SameNet m a b) (second : SameNet m b c) : SameNet m a c := by
  cases a <;> cases b <;> cases c
  · exact Eq.trans first second
  all_goals first
    | exact first.elim
    | exact second.elim
    | skip
  exact ⟨first.1.trans second.1, first.2.trans second.2⟩

theorem shiftRight_eq {x y i j : Nat} (same : x >>> i = y >>> i) (le : i ≤ j) : x >>> j = y >>> j := by
  obtain ⟨k, rfl⟩ := Nat.exists_eq_add_of_le le
  rw [Nat.shiftRight_add, Nat.shiftRight_add, same]

theorem SameNet.mono (same : SameNet n a b) (le : m ≤ n) : SameNet m a b := by
  cases a <;> cases b
  · exact shiftRight_eq same (by omega)
  · exact same
  · exact same
  rename_i x y
  obtain ⟨takes, byte⟩ := same
  obtain inside | last : min m 128 / 8 < min n 128 / 8 ∨ min m 128 / 8 = min n 128 / 8 := by omega
  · have sameByte : x.1.getD (min m 128 / 8) 0 = y.1.getD (min m 128 / 8) 0 := by
      rw [List.getD_eq_getElem?_getD, List.getD_eq_getElem?_getD, ← List.getElem?_take_of_lt inside, takes,
        List.getElem?_take_of_lt inside]
    refine ⟨?_, congrArg (fun b => b.toNat >>> _) sameByte⟩
    have least : min (min m 128 / 8) (min n 128 / 8) = min m 128 / 8 := by omega
    rw [← least, ← List.take_take, ← List.take_take, takes]
  · refine ⟨last ▸ takes, ?_⟩
    rw [last]
    exact shiftRight_eq byte (by omega)

theorem SameNet.zero (family : a.family = b.family) : SameNet 0 a b := by
  cases a <;> cases b
  · exact compareInet_eq_zero.mp rfl
  · cases family
  · cases family
  · rename_i x y
    exact (compareInet6_eq_zero (x.2.trans y.2.symm)).mp rfl

end Networks
/-! ## What an entry stands for -/

def isAbout (addr : TorAddr) (port : UInt16) (e : AddrPolicy) : Bool :=
  torAddrCompareMasked addr e.addr e.maskbits = 0 ∧ e.prtMin ≤ port ∧ port ≤ e.prtMax

def verdict (e : AddrPolicy) : Result := if e.policyType = .accept then .accepted else .rejected

section Entries
variable {addr : TorAddr} {port : UInt16} {a b ap tmp : AddrPolicy} {dest policy : List AddrPolicy}

theorem isAbout_iff : isAbout addr port a = true ↔
    SameNet a.maskbits.toNat addr a.addr ∧ a.prtMin ≤ port ∧ port ≤ a.prtMax := by
  rw [isAbout, decide_eq_true_eq, torAddrCompareMasked_eq_zero]

theorem compareKnown_eq (addr : TorAddr) (port : UInt16) (policy : List AddrPolicy) :
    compareKnownTorAddrToAddrPolicy addr port policy = answer (isAbout addr port) verdict .accepted policy := by
  induction policy with
  | nil => rfl
  | cons e policy ih =>
      rw [compareKnownTorAddrToAddrPolicy, answer, ih, isAbout]
      simp only [decide_eq_true_eq, verdict]

theorem addrPolicyCovers_iff : addrPolicyCovers a b = true ↔
    a.maskbits ≤ b.maskbits ∧ SameNet a.maskbits.toNat a.addr b.addr ∧ a.prtMin ≤ b.prtMin ∧ b.prtMax ≤ a.prtMax := by
  unfold addrPolicyCovers
  split_ifs with family bits net
  · exact iff_of_false not_false fun all => family all.2.1.family
  · exact iff_of_false not_false fun all => UInt8.not_lt.mpr all.1 bits
  · exact iff_of_false not_false fun all => net (torAddrCompareMasked_eq_zero.mpr all.2.1)
  · have le : a.maskbits ≤ b.maskbits := UInt8.not_lt.mp bits
    have same := torAddrCompareMasked_eq_zero.mp (not_not.mp net)
    rw [Bool.and_eq_true, decide_eq_true_eq, decide_eq_true_eq, and_iff_right le, and_iff_right same]

theorem isAbout_of_covers (covers : addrPolicyCovers a b = true) (about : isAbout addr port b = true) :
    isAbout addr port a = true := by
  obtain ⟨bits, net, low, high⟩ := addrPolicyCovers_iff.mp covers
  obtain ⟨inside, least, most⟩ := isAbout_iff.mp about
  have outer : SameNet a.maskbits.toNat addr b.addr := inside.mono bits
  exact isAbout_iff.mpr ⟨outer.trans net.symm, UInt16.le_trans low least, UInt16.le_trans most high⟩

theorem intersects_of_isAbout (first : isAbout addr port a = true) (second : isAbout addr port b = true) :
    addrPolicyIntersects a b = true := by
  obtain ⟨netA, lowA, highA⟩ := isAbout_iff.mp first
  obtain ⟨netB, lowB, highB⟩ := isAbout_iff.mp second
  have net : torAddrCompareMasked a.addr b.addr (if a.maskbits < b.maskbits then a.maskbits else b.maskbits) = 0 := by
    rw [torAddrCompareMasked_eq_zero]
    split
    · rename_i less
      exact netA.symm.trans (netB.mono (UInt8.le_of_lt less))
    · rename_i notLess
      exact (netA.mono (UInt8.not_lt.mp notLess)).symm.trans netB
  have before : ¬ a.prtMax < b.prtMin := UInt16.not_lt.mpr (UInt16.le_trans lowB highA)
  have after : ¬ b.prtMax < a.prtMin := UInt16.not_lt.mpr (UInt16.le_trans lowA highB)
  unfold addrPolicyIntersects
  dsimp only
  rw [if_neg (not_not.mpr net), decide_eq_false before, decide_eq_false after]
  rfl

end Entries

/-! ## The three steps -/

section Steps
variable {addr : TorAddr} {port : UInt16} {ap tmp : AddrPolicy} {killV4 killV6 : Bool} {policy dest : List AddrPolicy}

theorem allPorts (known : port ≠ 0) (low : ap.prtMin ≤ 1) (high : 65535 ≤ ap.prtMax) :
    ap.prtMin ≤ port ∧ port ≤ ap.prtMax := by
  have least : (1 : UInt16) ≤ port := by
    rw [UInt16.le_iff_toNat_le]
    exact Nat.one_le_iff_ne_zero.mpr fun zero => known (UInt16.toNat_inj.mp zero)
  have most : port ≤ 65535 := by
    rw [UInt16.le_iff_toNat_le]
    exact Nat.le_of_lt_succ port.toNat_lt
  exact ⟨UInt16.le_trans low least, UInt16.le_trans most high⟩

theorem isAbout_catchAll (port : UInt16) (known : port ≠ 0) (family : addr.family = ap.addr.family)
    (catchAll : (ap.maskbits = 0 && ap.prtMin ≤ 1 && 65535 ≤ ap.prtMax) = true) : isAbout addr port ap = true := by
  rw [Bool.and_eq_true, Bool.and_eq_true, decide_eq_true_eq, decide_eq_true_eq, decide_eq_true_eq] at catchAll
  obtain ⟨⟨bits, low⟩, high⟩ := catchAll
  have whole : SameNet ap.maskbits.toNat addr ap.addr := by
    rw [bits]
    exact SameNet.zero family
  exact isAbout_iff.mpr ⟨whole, allPorts known low high⟩

theorem killUnreachable_answer (port : UInt16) (known : port ≠ 0) (policy : List AddrPolicy)
    (v4 : killV4 = true → addr.family ≠ 2) (v6 : killV6 = true → addr.family ≠ 10) :
    answer (isAbout addr port) verdict .accepted (killUnreachable killV4 killV6 policy) =
      answer (isAbout addr port) verdict .accepted policy := by
  induction policy generalizing killV4 killV6 with
  | nil => rfl
  | cons ap dest ih =>
      unfold killUnreachable
      dsimp only
      split_ifs with killed catchAll
      · rw [answer_miss, ih v4 v6]
        cases about : isAbout addr port ap with
        | false => rfl
        | true =>
            have family := (isAbout_iff.mp about).1.family
            rw [Bool.or_eq_true, Bool.and_eq_true, Bool.and_eq_true, decide_eq_true_eq, decide_eq_true_eq] at killed
            obtain ⟨is, kill⟩ | ⟨is, kill⟩ := killed
            · exact absurd (family.trans is) (v4 kill)
            · exact absurd (family.trans is) (v6 kill)
      · refine answer_cons_congr fun miss => ih ?_ ?_
        · intro kill same
          rw [Bool.or_eq_true, decide_eq_true_eq] at kill
          obtain is | kill := kill
          · rw [isAbout_catchAll port known (same.trans is.symm) catchAll] at miss
            cases miss
          · exact v4 kill same
        · intro kill same
          rw [Bool.or_eq_true, Bool.and_eq_true, decide_eq_true_eq] at kill
          obtain ⟨-, is⟩ | kill := kill
          · rw [isAbout_catchAll port known (same.trans is.symm) catchAll] at miss
            cases miss
          · exact v6 kill same
      · exact answer_cons_congr fun _ => ih v4 v6

theorem removeCovered_answer (addr : TorAddr) (port : UInt16) (policy : List AddrPolicy) :
    answer (isAbout addr port) verdict .accepted (removeCovered policy) =
      answer (isAbout addr port) verdict .accepted policy := by
  fun_induction removeCovered policy with
  | case1 => rfl
  | case2 ap dest ih =>
      refine answer_cons_congr fun miss => ih.trans ?_
      refine answer_filter fun tmp _ dropped => ?_
      have covers : addrPolicyCovers ap tmp = true := by simpa using dropped
      cases about : isAbout addr port tmp with
      | false => rfl
      | true =>
          rw [isAbout_of_covers covers about] at miss
          cases miss

theorem madeRedundant_answer (redundant : madeRedundant ap dest = true) (about : isAbout addr port ap = true) :
    answer (isAbout addr port) verdict .accepted dest = verdict ap := by
  induction dest with
  | nil => cases redundant
  | cons tmp dest ih =>
      unfold madeRedundant at redundant
      split_ifs at redundant with differs intersects covers
      · have miss : isAbout addr port tmp = false := by
          cases aboutTmp : isAbout addr port tmp with
          | false => rfl
          | true => exact absurd (intersects_of_isAbout about aboutTmp) intersects
        rw [answer_miss miss, ih redundant]
      · rw [answer_hit (isAbout_of_covers covers about), verdict, verdict, ← not_not.mp differs]
      · cases aboutTmp : isAbout addr port tmp with
        | true => rw [answer_hit aboutTmp, verdict, verdict, ← not_not.mp differs]
        | false => rw [answer_miss aboutTmp, ih redundant]

theorem removeRedundant_answer (addr : TorAddr) (port : UInt16) (policy : List AddrPolicy) :
    answer (isAbout addr port) verdict .accepted (removeRedundant policy) =
      answer (isAbout addr port) verdict .accepted policy := by
  induction policy with
  | nil => rfl
  | cons ap dest ih =>
      unfold removeRedundant
      split
      · rename_i redundant
        rw [ih]
        cases about : isAbout addr port ap with
        | true => rw [answer_hit about, madeRedundant_answer redundant about]
        | false => rw [answer_miss about]
      · exact answer_cons_congr fun _ => ih

end Steps

/-! ## The policy that is left -/

/-- Simplifying a policy keeps what it says of every address that it can tell from an unknown one. -/
theorem exitPolicyRemoveRedundancies_compare (addr : TorAddr) (port : UInt16) (dest : List AddrPolicy)
    (address : addr.isNull = false) (known : port ≠ 0) :
    compareTorAddrToAddrPolicy (some addr) port (some (exitPolicyRemoveRedundancies dest)) =
      compareTorAddrToAddrPolicy (some addr) port (some dest) := by
  have first (policy : List AddrPolicy) : compareTorAddrToAddrPolicy (some addr) port (some policy) =
      answer (isAbout addr port) verdict .accepted policy := by
    rw [compareTorAddrToAddrPolicy]
    simp only [address, Bool.false_eq_true, if_false, if_neg known, compareKnown_eq]
  calc compareTorAddrToAddrPolicy (some addr) port (some (exitPolicyRemoveRedundancies dest))
    _ = answer (isAbout addr port) verdict .accepted (removeRedundant (removeCovered (killUnreachable false false dest))) :=
      first _
    _ = answer (isAbout addr port) verdict .accepted (removeCovered (killUnreachable false false dest)) :=
      removeRedundant_answer addr port _
    _ = answer (isAbout addr port) verdict .accepted (killUnreachable false false dest) := removeCovered_answer addr port _
    _ = answer (isAbout addr port) verdict .accepted dest :=
      killUnreachable_answer port known dest (fun kill => by cases kill) fun kill => by cases kill
    _ = compareTorAddrToAddrPolicy (some addr) port (some dest) := (first _).symm

/-- An address that a rule between two like ones is about. -/
theorem remove_between : compareTorAddrToAddrPolicy (some (.inet 0x0a000001)) 80
      (some (exitPolicyRemoveRedundancies
        [⟨.reject, 32, .inet 0x0a000001, 80, 80⟩, ⟨.accept, 16, .inet 0xc0a80000, 1, 65535⟩,
          ⟨.reject, 8, .inet 0x0a000000, 1, 65535⟩])) = .rejected :=
  (exitPolicyRemoveRedundancies_compare (.inet 0x0a000001) 80 _ (by decide) (by decide)).trans (by decide)

/-- The null address is one that is not known: an entry for the other family then decides where one was removed. -/
theorem nullAddress_differs : ¬ ∀ (addr : TorAddr) (port : UInt16) (dest : List AddrPolicy), port ≠ 0 →
    compareTorAddrToAddrPolicy (some addr) port (some (exitPolicyRemoveRedundancies dest)) =
      compareTorAddrToAddrPolicy (some addr) port (some dest) := by
  intro all
  have same := all (.inet 0) 80
    [⟨.accept, 0, .inet 0, 80, 80⟩, ⟨.reject, 0, .inet6 ⟨List.replicate 16 0, rfl⟩, 80, 80⟩,
      ⟨.accept, 0, .inet 0, 1, 65535⟩] (by decide)
  exact absurd same (by decide +kernel)

end TorJet.Policy
