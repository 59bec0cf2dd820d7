import TorJet.Net.Address
import TorJet.Net.CString
import TorJet.Policy.Order

/-!
# Address patterns

`tor_addr_parse_mask_ports`: an address, a prefix length or a netmask, and ports.
-/

namespace TorJet.Policy
open Base Net

/-- `TAPMP_EXTENDED_STAR`, `TAPMP_STAR_IPV4_ONLY` and `TAPMP_STAR_IPV6_ONLY`; the last two exclude one another. -/
structure Tapmp where
  extendedStar : Bool
  starIpv4Only : Bool
  starIpv6Only : Bool
  exclusive : (starIpv4Only && starIpv6Only) = false

/-- What a pattern stands for; `none` is the address of the family `AF_UNSPEC`. -/
structure Pattern where
  addr : Option TorAddr
  maskbits : UInt8
  portMin : UInt16
  portMax : UInt16
  deriving DecidableEq

/-- `strchr`: the text before and behind the first such character. -/
def strchr (c : Char) (s : Text) : Option (Text × Text) :=
  match s.dropWhile (· ≠ c) with
  | [] => none
  | _ :: after => some (s.takeWhile (· ≠ c), after)

/-- The parts of a pattern; `gap` is between a closing bracket and what follows. -/
structure Pieces where
  bracket : Bool
  address : Text
  gap : Text
  mask : Option Text
  port : Option Text

def cutTail (s : Text) : Text × Option Text × Option Text :=
  match strchr '/' s with
  | some (before, mask) =>
      match strchr ':' mask with
      | some (mask, port) => (before, some mask, some port)
      | none => (before, some mask, none)
  | none =>
      match strchr ':' s with
      | some (before, port) => (before, none, some port)
      | none => (s, none, none)

def cut (s : Text) : Option Pieces :=
  if s.head? = some '[' then do
    let (address, behind) ← strchr ']' s.tail
    let (gap, mask, port) := cutTail behind
    some ⟨true, address, gap, mask, port⟩
  else
    let (address, mask, port) := cutTail s
    some ⟨false, address, [], mask, port⟩

theorem nilBytes_length : (List.replicate 16 (0 : UInt8)).length = 16 := List.length_replicate

def nilBytes : { bytes : List UInt8 // bytes.length = 16 } := ⟨List.replicate 16 0, nilBytes_length⟩

/-- `tor_addr_from_in6`, of the words of `tor_inet_pton` -/
def fromWords (words : List Nat) : { bytes : List UInt8 // bytes.length = 16 } :=
  ⟨(List.range 8).flatMap fun i => [UInt8.ofNat (words.getD i 0 / 256), UInt8.ofNat (words.getD i 0 % 256)], rfl⟩

/-- The address that `*` stands for. -/
def star (flags : Tapmp) : Option TorAddr :=
  if flags.extendedStar then
    if flags.starIpv4Only then some (.inet 0)
    else if flags.starIpv6Only then some (.inet6 nilBytes)
    else none
  else some (.inet 0)

def parseAddress (flags : Tapmp) (address : Text) : Option (Option TorAddr × Bool) :=
  if address = ['*'] then some (star flags, true)
  else if address = ['*', '4'] ∧ flags.extendedStar then some (some (.inet 0), true)
  else if address = ['*', '6'] ∧ flags.extendedStar then some (some (.inet6 nilBytes), true)
  else
    match torInetPton6 address with
    | some words => some (some (.inet6 (fromWords words)), false)
    | none => (torInetAton address).map fun a => (some (.inet (UInt32.ofNat a)), false)

/-- `strtol` in base 10 with a `long` of 64 bits, and where it stops. -/
def strtol (s : Text) : Int × Text :=
  match strtolDecimal s with
  | some (negative, n, rest) => (if negative then -(min n (2 ^ 63) : Nat) else (min n (2 ^ 63 - 1) : Nat), rest)
  | none => (0, s)

def addrMaskGetBits (mask : Nat) : Option Nat :=
  if mask = 0 then some 0
  else if mask = 0xffffffff then some 32
  else (List.range' 1 32).find? fun i => mask = 2 ^ 32 - 1 - (2 ^ (32 - i) - 1)

def readMask (addr : Option TorAddr) (mask : Text) : Option Int :=
  let (r, endptr) := strtol mask
  let bits := Int.bmod r (2 ^ 32)
  if endptr = [] then
    if (bits < 0 ∨ 128 < bits) ∨ addr.any (·.family = 2) ∧ 32 < bits then none else some bits
  else do
    let v4mask ← torInetAton mask
    let bits ← addrMaskGetBits v4mask
    some bits

def mapBits (addr : Option TorAddr) (bits : Int) : Option Int :=
  if addr.any fun a => a.family = 10 && a.isV4 then
    if 32 < bits ∧ bits < 96 then none else some (96 + bits % 32)
  else some bits

def parseMask (addr : Option TorAddr) (anyFlag : Bool) : Option Text → Option Int
  | some mask => do
      let bits ← readMask addr mask
      let bits ← mapBits addr bits
      if anyFlag then none else some bits
  | none =>
      some (if anyFlag then 0
        else match addr with
          | some (.inet _) => 32
          | some (.inet6 _) => 128
          | none => 0)

/-- `tor_parse_long` with the bounds of a port and `next` given. -/
def parsePort (s : Text) : Option (Int × Text) :=
  match strtolDecimal s with
  | some (negative, n, rest) =>
      let r : Int := if negative then -n else n
      if r < 1 ∨ 65535 < r then none else some (r, rest)
  | none => none

def parsePortRange : Option Text → Option (Int × Int)
  | none => some (1, 65535)
  | some port =>
      if port = [] ∨ port = ['*'] then some (1, 65535)
      else do
        let (portMin, rest) ← parsePort port
        match rest with
        | [] => some (portMin, portMin)
        | '-' :: rest => do
            let (portMax, _) ← parsePort rest
            if portMax < portMin then none else some (portMin, portMax)
        | _ => none

def maxAddressLength : Nat := 48 + 2 + (1 + 16) + 12 + 1

/-- `tor_addr_parse_mask_ports`, with a mask and ports wanted -/
def torAddrParseMaskPorts (s : Text) (flags : Tapmp) : Option Pattern :=
  if maxAddressLength < s.length then none
  else do
    let pieces ← cut s
    let (addr, anyFlag) ← parseAddress flags pieces.address
    let bits ← parseMask addr anyFlag pieces.mask
    let (portMin, portMax) ← parsePortRange pieces.port
    some ⟨addr, UInt8.ofNat bits.toNat, UInt16.ofNat portMin.toNat, UInt16.ofNat portMax.toNat⟩

/-! ## The grammar -/

inductive IsAddress (flags : Tapmp) : Text → Bool → Option TorAddr → Prop
  | star : IsAddress flags ['*'] true (star flags)
  | star4 (extended : flags.extendedStar = true) : IsAddress flags ['*', '4'] true (some (.inet 0))
  | star6 (extended : flags.extendedStar = true) : IsAddress flags ['*', '6'] true (some (.inet6 nilBytes))
  | inet {t : Text} {a : Nat} (quad : torInetAton t = some a) : IsAddress flags t false (some (.inet (UInt32.ofNat a)))
  | inet6 {t : Text} {words : List Nat} (closed : ']' ∉ t) (read : torInetPton6 t = some words) :
      IsAddress flags ('[' :: (t ++ [']'])) false (some (.inet6 (fromWords words)))

def IsInteger (n : Nat) (t : Text) : Prop := t ≠ [] ∧ (∀ c ∈ t, torIsdigit c = true) ∧ decimal t = n

def IsNetmask (n : Nat) (t : Text) : Prop := n ≤ 32 ∧ torInetAton t = some (2 ^ 32 - 2 ^ (32 - n))

def Counts (addr : TorAddr) (n bits : Nat) : Prop :=
  if addr.family = 10 ∧ addr.isV4 = true then n < 32 ∧ bits = 96 + n ∨ 96 ≤ n ∧ n < 128 ∧ bits = n
  else bits = n

inductive IsMask : Bool → Option TorAddr → Text → Nat → Prop
  | any (addr : Option TorAddr) : IsMask true addr [] 0
  | whole (addr : TorAddr) : IsMask false (some addr) [] addr.width
  | length {addr : TorAddr} {n bits : Nat} {t : Text} (number : IsInteger n t) (fits : n ≤ addr.width)
      (counts : Counts addr n bits) : IsMask false (some addr) ('/' :: t) bits
  | netmask {addr : TorAddr} {n bits : Nat} {t : Text} (quad : IsNetmask n t) (counts : Counts addr n bits) :
      IsMask false (some addr) ('/' :: t) bits

inductive IsPorts : Text → Nat → Nat → Prop
  | none : IsPorts [] 1 65535
  | empty : IsPorts [':'] 1 65535
  | star : IsPorts [':', '*'] 1 65535
  | one {n : Nat} {t : Text} (number : IsInteger n t) (low : 1 ≤ n) (high : n ≤ 65535) : IsPorts (':' :: t) n n
  | range {m n : Nat} {t u : Text} (first : IsInteger m t) (second : IsInteger n u) (low : 1 ≤ m) (ordered : m ≤ n)
      (high : n ≤ 65535) : IsPorts (':' :: (t ++ '-' :: u)) m n

def IsPattern (flags : Tapmp) (s : Text) (r : Pattern) : Prop :=
  s.length ≤ maxAddressLength ∧ ∃ address mask ports any bits low high,
    s = address ++ (mask ++ ports) ∧ IsAddress flags address any r.addr ∧ IsMask any r.addr mask bits ∧
      IsPorts ports low high ∧ r.maskbits = UInt8.ofNat bits ∧ r.portMin = UInt16.ofNat low ∧
        r.portMax = UInt16.ofNat high

/-- A text that `strtol` takes for a number although it is not digits only, or is out of the bounds of an `int`. -/
def LaxInteger (t : Text) : Prop :=
  (t = [] ∨ ∃ negative n, IsNumber negative n t) ∧ ¬ ∃ n, IsInteger n t ∧ n < 2 ^ 31

def LaxPort (t : Text) : Prop := ∃ n, IsNumber false n t ∧ 1 ≤ n ∧ n ≤ 65535 ∧ ¬ IsInteger n t

inductive Slip (flags : Tapmp) : Text → Prop
  | behindBracket {t gap rest : Text} {words : List Nat} (closed : ']' ∉ t) (read : torInetPton6 t = some words)
      (more : gap ≠ []) (noMask : '/' ∉ gap) (ends : rest.head? = some '/' ∨ ':' ∉ gap ∧ ∀ c ∈ rest.head?, c = ':') :
      Slip flags ('[' :: (t ++ ']' :: (gap ++ rest)))
  | bracket {t rest : Text} {any : Bool} {addr : Option TorAddr} (closed : ']' ∉ t) (other : IsAddress flags t any addr) :
      Slip flags ('[' :: (t ++ ']' :: rest))
  | noBracket {t rest : Text} {words : List Nat} (read : torInetPton6 t = some words) (ends : rest.head? = some '/') :
      Slip flags (t ++ rest)
  | mask {a t rest : Text} (lax : LaxInteger t) (ends : ∀ c ∈ rest.head?, c = ':') : Slip flags (a ++ '/' :: (t ++ rest))
  | mapped {t m rest : Text} {words : List Nat} (closed : ']' ∉ t) (read : torInetPton6 t = some words)
      (isV4 : (TorAddr.inet6 (fromWords words)).isV4 = true)
      (full : IsInteger 32 m ∨ IsInteger 128 m ∨ IsNetmask 32 m) (ends : ∀ c ∈ rest.head?, c = ':') :
      Slip flags ('[' :: (t ++ ']' :: '/' :: (m ++ rest)))
  | port {a t rest : Text} (lax : LaxPort t) (ends : ∀ c ∈ rest.head?, c = '-') : Slip flags (a ++ ':' :: (t ++ rest))
  | secondPort {a t u : Text} (lax : LaxPort u) : Slip flags (a ++ ':' :: (t ++ '-' :: u))
  | behindPorts {a t u rest : Text} {n : Nat} (number : IsNumber false n u) (low : 1 ≤ n) (high : n ≤ 65535)
      (more : rest ≠ []) (stops : ∀ c ∈ rest.head?, torIsdigit c = false) :
        Slip flags (a ++ ':' :: (t ++ '-' :: (u ++ rest)))

/-! ## Cutting -/

section Cutting
variable {s t before after : Text} {c : Char} {mask port : Option Text}

theorem strchr_eq_none : strchr c s = none ↔ c ∉ s := by
  rw [strchr]
  split
  · next none' =>
      refine iff_of_true rfl fun mem => ?_
      have all := List.dropWhile_eq_nil_iff.mp none' c mem
      simp at all
  · next d after found =>
      refine iff_of_false (fun none' => by cases none') fun absent => absent ?_
      have here : d = c := by simpa using dropWhile_stops (· ≠ c) s d (by rw [found]; rfl)
      rw [← List.takeWhile_append_dropWhile (p := (· ≠ c)) (l := s), found, here]
      exact List.mem_append_right _ List.mem_cons_self

theorem strchr_eq_some : strchr c s = some (before, after) ↔ s = before ++ c :: after ∧ c ∉ before := by
  constructor
  · intro found
    rw [strchr] at found
    split at found
    · cases found
    · next d after' rest =>
        obtain ⟨rfl, rfl⟩ := Prod.mk.inj (Option.some.inj found)
        have here : d = c := by simpa using dropWhile_stops (· ≠ c) s d (by rw [rest]; rfl)
        refine ⟨?_, fun mem => by simpa using List.mem_takeWhile_imp mem⟩
        rw [← here, ← rest, here, List.takeWhile_append_dropWhile]
  · rintro ⟨rfl, absent⟩
    have all : ∀ d ∈ before, (decide (d ≠ c)) = true := fun d mem => decide_eq_true fun same => absent (same ▸ mem)
    have stops : ∀ d ∈ (c :: after).head?, (decide (d ≠ c)) = false := by
      intro d mem
      obtain rfl := Option.some.inj mem
      simp
    rw [strchr, dropWhile_append all stops, takeWhile_append all stops]

def tail (mask port : Option Text) : Text := mask.elim [] ('/' :: ·) ++ port.elim [] (':' :: ·)

structure Clean (before : Text) (mask port : Option Text) : Prop where
  slash : '/' ∉ before
  colon : ∀ m ∈ mask, ':' ∉ m
  noMask : mask = none → ':' ∉ before ∧ ∀ p ∈ port, '/' ∉ p

theorem cutTail_iff : cutTail s = (before, mask, port) ↔ s = before ++ tail mask port ∧ Clean before mask port := by
  constructor
  · intro split'
    rw [cutTail] at split'
    cases slash : strchr '/' s with
    | some cut1 =>
        obtain ⟨before', m⟩ := cut1
        obtain ⟨rfl, absent⟩ := strchr_eq_some.mp slash
        rw [slash] at split'
        dsimp only at split'
        cases colon : strchr ':' m with
        | some cut2 =>
            obtain ⟨m', p⟩ := cut2
            obtain ⟨rfl, absent'⟩ := strchr_eq_some.mp colon
            rw [colon] at split'
            obtain ⟨rfl, rfl, rfl⟩ := by simpa only [Prod.mk.injEq] using split'
            exact ⟨rfl, absent, fun m mem => Option.some.inj mem ▸ absent', fun none' => (by cases none')⟩
        | none =>
            rw [colon] at split'
            obtain ⟨rfl, rfl, rfl⟩ := by simpa only [Prod.mk.injEq] using split'
            refine ⟨by rw [tail]; simp, absent, fun m' mem => ?_, fun none' => (by cases none')⟩
            exact Option.some.inj mem ▸ strchr_eq_none.mp colon
    | none =>
        have absent := strchr_eq_none.mp slash
        rw [slash] at split'
        dsimp only at split'
        cases colon : strchr ':' s with
        | some cut2 =>
            obtain ⟨before', p⟩ := cut2
            obtain ⟨rfl, absent'⟩ := strchr_eq_some.mp colon
            rw [colon] at split'
            obtain ⟨rfl, rfl, rfl⟩ := by simpa only [Prod.mk.injEq] using split'
            refine ⟨rfl, fun mem => absent (List.mem_append_left _ mem), fun m mem => (by cases mem),
              fun _ => ⟨absent', fun p mem => ?_⟩⟩
            obtain rfl := Option.some.inj mem
            exact fun mem => absent (List.mem_append_right _ (List.mem_cons_of_mem _ mem))
        | none =>
            rw [colon] at split'
            obtain ⟨rfl, rfl, rfl⟩ := by simpa only [Prod.mk.injEq] using split'
            exact ⟨by simp [tail], absent, fun m mem => (by cases mem),
              fun _ => ⟨strchr_eq_none.mp colon, fun p mem => (by cases mem)⟩⟩
  · rintro ⟨rfl, clean⟩
    rw [cutTail]
    cases mask with
    | some m =>
        have slash : strchr '/' (before ++ tail (some m) port) = some (before, m ++ port.elim [] (':' :: ·)) :=
          strchr_eq_some.mpr ⟨rfl, clean.slash⟩
        rw [slash]
        dsimp only
        cases port with
        | some p =>
            have colon : strchr ':' (m ++ ':' :: p) = some (m, p) := strchr_eq_some.mpr ⟨rfl, clean.colon m rfl⟩
            rw [show (some p).elim [] (':' :: ·) = ':' :: p from rfl, colon]
        | none =>
            have colon : strchr ':' m = none := strchr_eq_none.mpr (clean.colon m rfl)
            rw [show (none : Option Text).elim [] (':' :: ·) = [] from rfl, List.append_nil, colon]
    | none =>
        obtain ⟨noColon, noSlash⟩ := clean.noMask rfl
        cases port with
        | some p =>
            have slash : strchr '/' (before ++ tail none (some p)) = none := by
              rw [strchr_eq_none, List.mem_append, not_or]
              refine ⟨clean.slash, fun mem => ?_⟩
              obtain first | later := List.mem_cons.mp mem
              · cases first
              · exact noSlash p rfl later
            have colon : strchr ':' (before ++ tail none (some p)) = some (before, p) := strchr_eq_some.mpr ⟨rfl, noColon⟩
            rw [slash]
            dsimp only
            rw [colon]
        | none =>
            have same : before ++ tail none none = before := List.append_nil before
            rw [same, strchr_eq_none.mpr clean.slash]
            dsimp only
            rw [strchr_eq_none.mpr noColon]

theorem cut_iff {p : Pieces} : cut s = some p ↔
    p.bracket = true ∧ s = '[' :: (p.address ++ ']' :: (p.gap ++ tail p.mask p.port)) ∧ ']' ∉ p.address ∧
        Clean p.gap p.mask p.port ∨
      p.bracket = false ∧ s = p.address ++ tail p.mask p.port ∧ s.head? ≠ some '[' ∧ p.gap = [] ∧
        Clean p.address p.mask p.port := by
  obtain ⟨bracket, address, gap, mask, port⟩ := p
  dsimp only
  rw [cut]
  by_cases first : s.head? = some '['
  · obtain ⟨rest, rfl⟩ := List.head?_eq_some_iff.mp first
    rw [if_pos first, List.tail_cons]
    constructor
    · intro read
      obtain ⟨⟨address', behind⟩, closed, read'⟩ := Option.bind_eq_some_iff.mp read
      obtain ⟨rfl, absent⟩ := strchr_eq_some.mp closed
      cases parts : cutTail behind with
      | mk gap' parts' =>
          obtain ⟨mask', port'⟩ := parts'
          dsimp only at read'
          rw [parts] at read'
          obtain ⟨rfl, rfl, rfl, rfl, rfl⟩ := by simpa only [Option.some.injEq, Pieces.mk.injEq] using read'
          obtain ⟨rfl, clean⟩ := cutTail_iff.mp parts
          exact .inl ⟨rfl, rfl, absent, clean⟩
    · rintro (⟨rfl, same, absent, clean⟩ | ⟨-, -, other, -⟩)
      · obtain rfl := (List.cons.inj same).2
        rw [strchr_eq_some.mpr ⟨rfl, absent⟩]
        dsimp only [Option.bind_eq_bind, Option.bind_some]
        rw [cutTail_iff.mpr ⟨rfl, clean⟩]
      · exact absurd first other
  · rw [if_neg first]
    constructor
    · intro read
      cases parts : cutTail s with
      | mk address' parts' =>
          obtain ⟨mask', port'⟩ := parts'
          rw [parts] at read
          obtain ⟨rfl, rfl, rfl, rfl, rfl⟩ := by simpa only [Option.some.injEq, Pieces.mk.injEq] using read
          obtain ⟨same, clean⟩ := cutTail_iff.mp parts
          exact .inr ⟨rfl, same, first, rfl, clean⟩
    · rintro (⟨-, rfl, -⟩ | ⟨rfl, same, -, rfl, clean⟩)
      · exact absurd rfl first
      · rw [cutTail_iff.mpr ⟨same, clean⟩]

end Cutting

/-! ## Addresses -/

section Addresses
variable {s t rest : Text} {flags : Tapmp} {any : Bool} {addr : Option TorAddr} {words : List Nat} {a n : Nat}

theorem scanUnsigned_split {width : Nat} (read : scanUnsigned width s = some (n, rest)) :
    ∃ digits, s = digits ++ rest ∧ ∀ c ∈ digits, torIsdigit c = true := by
  unfold scanUnsigned at read
  dsimp only at read
  split at read
  · cases read
  · split at read
    · cases read
    · obtain ⟨rfl, rfl⟩ := Prod.mk.inj (Option.some.inj read)
      refine ⟨(s.take width).takeWhile torIsdigit, ?_, fun c => List.mem_takeWhile_imp⟩
      have start : (s.take width).takeWhile torIsdigit <+: s := (List.takeWhile_prefix _).trans (List.take_prefix _ _)
      exact (List.prefix_iff_eq_append.mp start).symm

theorem dot_split (read : scanQuad.dot s = some (n, rest)) :
    ∃ digits, s = '.' :: (digits ++ rest) ∧ ∀ c ∈ digits, torIsdigit c = true := by
  unfold scanQuad.dot at read
  split at read
  · obtain ⟨digits, rfl, all⟩ := scanUnsigned_split read
    exact ⟨digits, rfl, all⟩
  · cases read

theorem scanQuad_split {quad : List Nat} (read : scanQuad s = some quad) :
    ∃ digits after, s = digits ++ '.' :: after ∧ (∀ c ∈ digits, torIsdigit c = true) ∧
      ∀ c ∈ after, torIsdigit c = true ∨ c = '.' := by
  unfold scanQuad at read
  obtain ⟨⟨a, s1⟩, first, read⟩ := Option.bind_eq_some_iff.mp read
  obtain ⟨⟨b, s2⟩, second, read⟩ := Option.bind_eq_some_iff.mp read
  obtain ⟨⟨c, s3⟩, third, read⟩ := Option.bind_eq_some_iff.mp read
  obtain ⟨⟨d, s4⟩, fourth, read⟩ := Option.bind_eq_some_iff.mp read
  dsimp only at read second third fourth
  split at read
  · next ends =>
      obtain rfl := List.isEmpty_iff.mp ends
      obtain ⟨digits, rfl, all⟩ := scanUnsigned_split first
      obtain ⟨digits2, rfl, all2⟩ := dot_split second
      obtain ⟨digits3, rfl, all3⟩ := dot_split third
      obtain ⟨digits4, rfl, all4⟩ := dot_split fourth
      refine ⟨digits, _, rfl, all, fun c mem => ?_⟩
      simp only [List.mem_append, List.mem_cons, List.append_nil] at mem
      obtain mem | rfl | mem | rfl | mem := mem
      · exact .inl (all2 c mem)
      · exact .inr rfl
      · exact .inl (all3 c mem)
      · exact .inr rfl
      · exact .inl (all4 c mem)
  · cases read

theorem torInetAton_split (read : torInetAton s = some a) :
    ∃ digits after, s = digits ++ '.' :: after ∧ (∀ c ∈ digits, torIsdigit c = true) ∧
      ∀ c ∈ after, torIsdigit c = true ∨ c = '.' := by
  unfold torInetAton at read
  obtain ⟨quad, read, -⟩ := Option.bind_eq_some_iff.mp read
  exact scanQuad_split read

theorem notMem_of_torInetAton {c : Char} (read : torInetAton s = some a) (digit : torIsdigit c = false) (dot : c ≠ '.') :
    c ∉ s := by
  obtain ⟨digits, after, rfl, all, rest⟩ := torInetAton_split read
  intro mem
  obtain mem | mem := List.mem_append.mp mem
  · rw [all c mem] at digit
    cases digit
  · obtain rfl | mem := List.mem_cons.mp mem
    · exact dot rfl
    · obtain isDigit | isDot := rest c mem
      · rw [isDigit] at digit
        cases digit
      · exact dot isDot

theorem torInetPton6_of_torInetAton (read : torInetAton s = some a) : torInetPton6 s = none := by
  obtain ⟨digits, after, rfl, all, -⟩ := torInetAton_split read
  have absent : '.' ∉ digits := fun mem => by cases all '.' mem
  have index : (digits ++ '.' :: after).idxOf? '.' = some digits.length := by
    rw [List.idxOf?, List.findIdx?_append, List.findIdx?_eq_none_iff.mpr fun c mem => by
      simpa using fun same : c = '.' => absent (same ▸ mem), List.findIdx?_cons]
    simp
  have words : digits.rdropWhile torIsdigit = [] := List.rdropWhile_eq_nil_iff.mpr all
  unfold torInetPton6
  rw [index]
  dsimp only
  rw [List.take_left, words]
  split
  · rfl
  · rfl

theorem colon_of_torInetPton6 (read : torInetPton6 s = some words) : ':' ∈ s := by
  by_contra absent
  unfold torInetPton6 at read
  split at read
  · cases read
  · split at read
    · cases s with
      | nil => cases read
      | cons c s =>
          obtain ⟨w, read, filled⟩ := Option.bind_eq_some_iff.mp read
          have other : c ≠ ':' := fun same => absent (same ▸ List.mem_cons_self)
          unfold readWords at read
          dsimp only [List.length_cons] at read
          rw [if_neg (show ¬ 7 < ([] : List Nat).length by decide)] at read
          split at read
          · split at read
            · cases read
            · split at read
              · obtain rfl := Option.some.inj read
                cases filled
              · next after eq =>
                  refine absurd ?_ absent
                  exact List.mem_of_mem_drop (eq ▸ List.mem_cons_self)
              · cases read
          · rw [if_neg fun both => other both.1] at read
            cases read
    · next dot _ =>
        dsimp only at read
        split at read
        · cases read
        · next last =>
            refine absurd ?_ absent
            have mem := List.mem_of_getLast? (not_not.mp last)
            exact List.mem_of_mem_take ((List.rdropWhile_prefix _ _).mem mem)

theorem torInetPton6_star :
    torInetPton6 ['*'] = none ∧ torInetPton6 ['*', '4'] = none ∧ torInetPton6 ['*', '6'] = none := by
  decide

theorem parseAddress_of_isAddress (address : IsAddress flags t any addr) (open' : t.head? ≠ some '[') :
    parseAddress flags t = some (addr, any) ∧ torInetPton6 t = none ∧ '/' ∉ t ∧ ':' ∉ t := by
  cases address with
  | star => exact ⟨rfl, torInetPton6_star.1, by decide, by decide⟩
  | star4 extended =>
      refine ⟨?_, torInetPton6_star.2.1, by decide, by decide⟩
      rw [parseAddress, if_neg (by decide), if_pos ⟨rfl, extended⟩]
  | star6 extended =>
      refine ⟨?_, torInetPton6_star.2.2, by decide, by decide⟩
      rw [parseAddress, if_neg (by decide), if_neg fun both => (by cases both.1), if_pos ⟨rfl, extended⟩]
  | inet quad =>
      have absent := notMem_of_torInetAton (c := '*') quad rfl (by decide)
      have other := torInetPton6_of_torInetAton quad
      refine ⟨?_, other, notMem_of_torInetAton quad rfl (by decide), notMem_of_torInetAton quad rfl (by decide)⟩
      rw [parseAddress, if_neg, if_neg, if_neg, other]
      · dsimp only
        rw [quad]
        rfl
      · exact fun both => absent (both.1 ▸ List.mem_cons_self)
      · exact fun both => absent (both.1 ▸ List.mem_cons_self)
      · exact fun same => absent (same ▸ List.mem_cons_self)
  | inet6 closed read => exact absurd rfl open'

theorem parseAddress_of_torInetPton6 (read : torInetPton6 t = some words) :
    parseAddress flags t = some (some (.inet6 (fromWords words)), false) := by
  have other {u : Text} (none' : torInetPton6 u = none) : t ≠ u := by
    rintro rfl
    rw [read] at none'
    cases none'
  rw [parseAddress, if_neg (other torInetPton6_star.1), if_neg fun both => other torInetPton6_star.2.1 both.1,
    if_neg fun both => other torInetPton6_star.2.2 both.1, read]

theorem parseAddress_cases (read : parseAddress flags t = some (addr, any)) (other : torInetPton6 t = none) :
    IsAddress flags t any addr := by
  rw [parseAddress] at read
  split at read
  · next is =>
      obtain ⟨rfl, rfl⟩ := Prod.mk.inj (Option.some.inj read)
      exact is ▸ .star
  · split at read
    · next is =>
        obtain ⟨rfl, rfl⟩ := Prod.mk.inj (Option.some.inj read)
        exact is.1 ▸ .star4 is.2
    · split at read
      · next is =>
          obtain ⟨rfl, rfl⟩ := Prod.mk.inj (Option.some.inj read)
          exact is.1 ▸ .star6 is.2
      · rw [other] at read
        obtain ⟨a, quad, eq⟩ := Option.map_eq_some_iff.mp read
        obtain ⟨rfl, rfl⟩ := Prod.mk.inj eq
        exact .inet quad

end Addresses

/-! ## Masks -/

section Masks
variable {t rest : Text} {flags : Tapmp} {any : Bool} {addr : TorAddr} {n k : Nat} {bits : Int}

theorem IsInteger.isNumber (number : IsInteger n t) : IsNumber false n t :=
  ⟨[], [], t, rfl, fun c mem => (by cases mem), .inl rfl, number.1, number.2.1, number.2.2⟩

theorem IsInteger.notMem (number : IsInteger n t) {c : Char} (other : torIsdigit c = false) : c ∉ t := by
  intro mem
  rw [number.2.1 c mem] at other
  cases other

theorem notMem_of_isNumber {negative : Bool} {c : Char} (number : IsNumber negative n t) (blank : torIsspace c = false)
    (minus : c ≠ '-') (plus : c ≠ '+') (other : torIsdigit c = false) : c ∉ t := by
  obtain ⟨blanks, sign, digits, rfl, spaces, isSign, -, all, -⟩ := number
  intro mem
  obtain mem | mem := List.mem_append.mp mem
  · rw [spaces c mem] at blank
    cases blank
  obtain mem | mem := List.mem_append.mp mem
  · cases negative with
    | true =>
        obtain rfl : sign = ['-'] := isSign
        exact minus (List.mem_singleton.mp mem)
    | false =>
        obtain rfl | rfl : sign = [] ∨ sign = ['+'] := isSign
        · cases mem
        · exact plus (List.mem_singleton.mp mem)
  · rw [all c mem] at other
    cases other

theorem strtolDecimal_number {negative : Bool} (number : IsNumber negative n t)
    (stops : ∀ c ∈ rest.head?, torIsdigit c = false) : strtolDecimal (t ++ rest) = some (negative, n, rest) :=
  strtolDecimal_iff.mpr ⟨t, rfl, number, stops⟩

theorem strtol_whole (whole : (strtol t).2 = []) : t = [] ∨ ∃ negative n, IsNumber negative n t := by
  rw [strtol] at whole
  split at whole
  · next negative n rest read =>
      obtain ⟨number, split, isNumber, -⟩ := strtolDecimal_iff.mp read
      dsimp only at whole
      rw [whole, List.append_nil] at split
      exact .inr ⟨negative, n, split ▸ isNumber⟩
  · exact .inl whole

theorem strtol_integer (number : IsInteger n t) (small : n < 2 ^ 31) : strtol t = ((n : Int), []) := by
  have read : strtolDecimal (t ++ []) = _ := strtolDecimal_number number.isNumber fun c mem => (by cases mem)
  rw [List.append_nil] at read
  rw [strtol, read]
  dsimp only
  rw [if_neg Bool.false_ne_true, Nat.min_eq_left (by omega)]

theorem bmod_small (small : n < 2 ^ 31) : Int.bmod n (2 ^ 32) = n :=
  Int.bmod_eq_of_le (by omega) (by omega)

theorem addrMaskGetBits_iff {mask : Nat} : addrMaskGetBits mask = some n ↔ n ≤ 32 ∧ mask = 2 ^ 32 - 2 ^ (32 - n) := by
  constructor
  · intro found
    rw [addrMaskGetBits] at found
    split at found
    · next zero =>
        obtain rfl := Option.some.inj found
        exact ⟨Nat.zero_le _, zero⟩
    · split at found
      · next ones =>
          obtain rfl := Option.some.inj found
          exact ⟨Nat.le_refl _, ones⟩
      · have mem := List.mem_range'_1.mp (List.mem_of_find?_eq_some found)
        have same : mask = 2 ^ 32 - 1 - (2 ^ (32 - n) - 1) := by simpa using List.find?_some found
        have pos : 0 < 2 ^ (32 - n) := Nat.two_pow_pos _
        exact ⟨by omega, by omega⟩
  · rintro ⟨le, rfl⟩
    have all : ∀ n ≤ 32, addrMaskGetBits (2 ^ 32 - 2 ^ (32 - n)) = some n := by decide
    exact all n le

theorem strtol_quad {a : Nat} (quad : torInetAton t = some a) : (strtol t).2 ≠ [] := by
  obtain ⟨digits, after, rfl, -⟩ := torInetAton_split quad
  have dot : '.' ∈ digits ++ '.' :: after := List.mem_append_right _ List.mem_cons_self
  intro whole
  obtain none' | ⟨negative, n, number⟩ := strtol_whole whole
  · rw [none'] at dot
    cases dot
  · exact notMem_of_isNumber number rfl (by decide) (by decide) rfl dot

theorem readMask_integer (number : IsInteger n t) (fits : n ≤ addr.width) : readMask (some addr) t = some (n : Int) := by
  have narrow : addr.width ≤ 128 := by cases addr <;> simp [TorAddr.width]
  rw [readMask, strtol_integer number (by omega)]
  dsimp only
  rw [if_pos rfl, bmod_small (by omega), if_neg]
  rintro (outside | ⟨family, outside⟩)
  · omega
  · cases addr with
    | inet x => exact absurd outside (by rw [TorAddr.width] at fits; omega)
    | inet6 x => cases family

theorem readMask_netmask {addr : Option TorAddr} (mask : IsNetmask n t) : readMask addr t = some (n : Int) := by
  rw [readMask]
  dsimp only
  rw [if_neg (strtol_quad mask.2), mask.2]
  dsimp only [Option.bind_eq_bind, Option.bind_some]
  rw [addrMaskGetBits_iff.mpr ⟨mask.1, rfl⟩]
  rfl

theorem readMask_cases (read : readMask (some addr) t = some bits) :
    (∃ n : Nat, bits = (n : Int) ∧ (IsInteger n t ∧ n ≤ addr.width ∨ IsNetmask n t)) ∨ LaxInteger t := by
  rw [readMask] at read
  dsimp only at read
  split at read
  · next whole =>
      by_cases plain : ∃ n, IsInteger n t ∧ n < 2 ^ 31
      · obtain ⟨n, number, small⟩ := plain
        rw [strtol_integer number small] at read
        dsimp only at read
        rw [bmod_small small] at read
        split at read
        · cases read
        · next inside =>
            rw [not_or, not_and] at inside
            refine .inl ⟨n, (Option.some.inj read).symm, .inl ⟨number, ?_⟩⟩
            cases addr with
            | inet x => exact Int.ofNat_le.mp (Int.not_lt.mp (inside.2 rfl))
            | inet6 x => exact Int.ofNat_le.mp (Int.not_lt.mp fun past => inside.1 (.inr past))
      · exact .inr ⟨strtol_whole whole, plain⟩
  · obtain ⟨v4mask, quad, read⟩ := Option.bind_eq_some_iff.mp read
    obtain ⟨n, found, read'⟩ := Option.bind_eq_some_iff.mp read
    obtain ⟨le, rfl⟩ := addrMaskGetBits_iff.mp found
    exact .inl ⟨n, (Option.some.inj read').symm, .inr ⟨le, quad⟩⟩

theorem mapBits_counts (counts : Counts addr n k) : mapBits (some addr) n = some (k : Int) := by
  rw [Counts] at counts
  rw [mapBits]
  split at counts
  · next mapped =>
      rw [if_pos (by simpa using mapped)]
      obtain ⟨low, rfl⟩ | ⟨high, low, rfl⟩ := counts
      · rw [if_neg (by omega)]
        congr 1
        omega
      · rw [if_neg (by omega)]
        congr 1
        omega
  · next other =>
      rw [if_neg (by simpa using other), counts]

theorem mapBits_cases (mapped : mapBits (some addr) n = some bits) (fits : n ≤ 128) :
    (∃ k : Nat, bits = (k : Int) ∧ Counts addr n k) ∨ (addr.family = 10 ∧ addr.isV4 = true) ∧ (n = 32 ∨ n = 128) := by
  rw [mapBits] at mapped
  split at mapped
  · next isMapped =>
      have isMapped : addr.family = 10 ∧ addr.isV4 = true := by simpa using isMapped
      split at mapped
      · cases mapped
      · by_cases full : n = 32 ∨ n = 128
        · exact .inr ⟨isMapped, full⟩
        · refine .inl ⟨96 + n % 32, ?_, ?_⟩
          · rw [← Option.some.inj mapped]
            omega
          · rw [Counts, if_pos isMapped]
            omega
  · next other =>
      refine .inl ⟨n, (Option.some.inj mapped).symm, ?_⟩
      rw [Counts, if_neg (by simpa using other)]

theorem parseMask_of_isMask {addr : Option TorAddr} (mask : IsMask any addr t k) :
    ∃ m : Option Text, t = m.elim [] ('/' :: ·) ∧ parseMask addr any m = some (k : Int) ∧ ∀ u ∈ m, ':' ∉ u := by
  cases mask with
  | any => exact ⟨none, rfl, rfl, fun u mem => (by cases mem)⟩
  | whole addr =>
      refine ⟨none, rfl, ?_, fun u mem => (by cases mem)⟩
      cases addr <;> rfl
  | length number fits counts =>
      refine ⟨some _, rfl, ?_, fun u mem => Option.some.inj mem ▸ number.notMem rfl⟩
      rw [parseMask, readMask_integer number fits]
      dsimp only [Option.bind_eq_bind, Option.bind_some]
      rw [mapBits_counts counts]
      rfl
  | netmask quad counts =>
      refine ⟨some _, rfl, ?_, fun u mem => Option.some.inj mem ▸ notMem_of_torInetAton quad.2 rfl (by decide)⟩
      rw [parseMask, readMask_netmask quad]
      dsimp only [Option.bind_eq_bind, Option.bind_some]
      rw [mapBits_counts counts]
      rfl

theorem parseMask_cases {addr : Option TorAddr} {m : Option Text} (isAddress : any = false → ∃ a, addr = some a)
    (read : parseMask addr any m = some bits) :
    (∃ k : Nat, bits = (k : Int) ∧ IsMask any addr (m.elim [] ('/' :: ·)) k) ∨ (∃ u, m = some u ∧ LaxInteger u) ∨
      ∃ a u, any = false ∧ addr = some a ∧ m = some u ∧ (a.family = 10 ∧ a.isV4 = true) ∧
        (IsInteger 32 u ∨ IsInteger 128 u ∨ IsNetmask 32 u) := by
  cases m with
  | none =>
      cases any with
      | true => exact .inl ⟨0, (Option.some.inj read).symm, .any _⟩
      | false =>
          obtain ⟨a, rfl⟩ := isAddress rfl
          refine .inl ⟨a.width, ?_, .whole a⟩
          rw [← Option.some.inj read]
          cases a <;> rfl
  | some u =>
      obtain ⟨b, first, read⟩ := Option.bind_eq_some_iff.mp read
      obtain ⟨c, second, read'⟩ := Option.bind_eq_some_iff.mp read
      cases any with
      | true => cases read'
      | false =>
          obtain ⟨a, rfl⟩ := isAddress rfl
          obtain rfl : c = bits := Option.some.inj read'
          obtain ⟨n, rfl, form⟩ | lax := readMask_cases first
          · have fits : n ≤ 128 := by
              obtain ⟨-, le⟩ | mask := form
              · cases a with
                | inet x => exact Nat.le_trans le (show 32 ≤ 128 by decide)
                | inet6 x => exact le
              · exact Nat.le_trans mask.1 (by decide)
            obtain ⟨k, rfl, counts⟩ | ⟨mapped, full⟩ := mapBits_cases second fits
            · obtain ⟨number, le⟩ | mask := form
              · exact .inl ⟨k, rfl, .length number le counts⟩
              · exact .inl ⟨k, rfl, .netmask mask counts⟩
            · refine .inr (.inr ⟨a, u, rfl, rfl, rfl, mapped, ?_⟩)
              obtain ⟨number, -⟩ | mask := form
              · obtain rfl | rfl := full
                · exact .inl number
                · exact .inr (.inl number)
              · obtain rfl | rfl := full
                · exact .inr (.inr mask)
                · exact absurd mask.1 (by decide)
          · exact .inr (.inl ⟨u, rfl, lax⟩)

end Masks

/-! ## Ports -/

section Ports
variable {t u rest : Text} {flags : Tapmp} {m n : Nat}

theorem parsePort_iff {r : Int} : parsePort t = some (r, rest) ↔
    ∃ (n : Nat) (number : Text), r = n ∧ t = number ++ rest ∧ IsNumber false n number ∧ 1 ≤ n ∧ n ≤ 65535 ∧
      ∀ c ∈ rest.head?, torIsdigit c = false := by
  constructor
  · intro read
    rw [parsePort] at read
    split at read
    · next negative n rest' found =>
        obtain ⟨number, split, isNumber, stops⟩ := strtolDecimal_iff.mp found
        cases negative with
        | true =>
            dsimp only at read
            rw [if_pos rfl, if_pos (by omega)] at read
            cases read
        | false =>
            dsimp only at read
            rw [if_neg Bool.false_ne_true] at read
            split at read
            · cases read
            · next inside =>
                obtain ⟨rfl, rfl⟩ := Prod.mk.inj (Option.some.inj read)
                exact ⟨n, number, rfl, split, isNumber, by omega, by omega, stops⟩
    · cases read
  · rintro ⟨n, number, rfl, rfl, isNumber, low, high, stops⟩
    rw [parsePort, strtolDecimal_number isNumber stops]
    dsimp only
    rw [if_neg Bool.false_ne_true, if_neg (by omega)]

theorem parsePort_integer (number : IsInteger n t) (low : 1 ≤ n) (high : n ≤ 65535)
    (stops : ∀ c ∈ rest.head?, torIsdigit c = false) : parsePort (t ++ rest) = some ((n : Int), rest) :=
  parsePort_iff.mpr ⟨n, t, rfl, rfl, number.isNumber, low, high, stops⟩

theorem notStar {c : Char} (mem : c ∈ t) (digit : torIsdigit c = true) : ¬ (t = [] ∨ t = ['*']) := by
  rintro (rfl | rfl)
  · cases mem
  · obtain rfl := List.mem_singleton.mp mem
    cases digit

theorem parsePortRange_of_isPorts (ports : IsPorts t m n) :
    ∃ p : Option Text, t = p.elim [] (':' :: ·) ∧ parsePortRange p = some ((m : Int), (n : Int)) ∧ ∀ u ∈ p, '/' ∉ u := by
  cases ports with
  | none => exact ⟨none, rfl, rfl, fun u mem => (by cases mem)⟩
  | empty => exact ⟨some [], rfl, rfl, fun u mem => (by cases mem; decide)⟩
  | star => exact ⟨some ['*'], rfl, rfl, fun u mem => (by cases mem; decide)⟩
  | one number low high =>
      refine ⟨some _, rfl, ?_, fun u mem => Option.some.inj mem ▸ number.notMem rfl⟩
      have first := List.head_mem number.1
      have read : parsePort (_ ++ []) = _ := parsePort_integer number low high fun c mem => (by cases mem)
      rw [List.append_nil] at read
      rw [parsePortRange, if_neg (notStar first (number.2.1 _ first)), read]
      rfl
  | @range _ _ t u number second low ordered high =>
      refine ⟨some _, rfl, ?_, fun v mem => ?_⟩
      · have first := List.head_mem number.1
        have read : parsePort (t ++ '-' :: u) = _ :=
          parsePort_integer number low (by omega) fun c mem => (by cases mem; rfl)
        have read' : parsePort (u ++ []) = _ := parsePort_integer second (by omega) high fun c mem => (by cases mem)
        rw [List.append_nil] at read'
        rw [parsePortRange, if_neg (notStar (List.mem_append_left _ first) (number.2.1 _ first)), read]
        show ((parsePort u).bind fun q => if q.1 < (m : Int) then none else some ((m : Int), q.1)) = _
        rw [read', Option.bind_some, if_neg (by dsimp only; omega)]
      · obtain rfl := Option.some.inj mem
        intro slash
        obtain mem | mem := List.mem_append.mp slash
        · exact number.notMem rfl mem
        · obtain mem | mem := List.mem_cons.mp mem
          · cases mem
          · exact second.notMem rfl mem

theorem parsePortRange_cases {p : Option Text} {low high : Int} (read : parsePortRange p = some (low, high)) :
    (∃ m n : Nat, low = m ∧ high = n ∧ IsPorts (p.elim [] (':' :: ·)) m n) ∨
      ∀ flags a, Slip flags (a ++ p.elim [] (':' :: ·)) := by
  cases p with
  | none =>
      obtain ⟨rfl, rfl⟩ := Prod.mk.inj (Option.some.inj read)
      exact .inl ⟨1, 65535, rfl, rfl, .none⟩
  | some p =>
      rw [parsePortRange] at read
      split at read
      · next all =>
          obtain ⟨rfl, rfl⟩ := Prod.mk.inj (Option.some.inj read)
          obtain rfl | rfl := all
          · exact .inl ⟨1, 65535, rfl, rfl, .empty⟩
          · exact .inl ⟨1, 65535, rfl, rfl, .star⟩
      · obtain ⟨⟨first, behind⟩, one, after⟩ := Option.bind_eq_some_iff.mp read
        obtain ⟨m, t, rfl, rfl, number, lowM, highM, stops⟩ := parsePort_iff.mp one
        dsimp only at after
        by_cases plain : IsInteger m t
        · cases behind with
          | nil =>
              obtain ⟨rfl, rfl⟩ := Prod.mk.inj (Option.some.inj after)
              exact .inl ⟨m, m, rfl, rfl, by rw [List.append_nil]; exact .one plain lowM highM⟩
          | cons c behind =>
              by_cases dash : c = '-'
              · subst dash
                obtain ⟨⟨second, rest⟩, two, last⟩ := Option.bind_eq_some_iff.mp after
                obtain ⟨n, u, rfl, rfl, number', lowN, highN, stops'⟩ := parsePort_iff.mp two
                dsimp only at last
                split at last
                · cases last
                · next ordered =>
                    obtain ⟨rfl, rfl⟩ := Prod.mk.inj (Option.some.inj last)
                    by_cases ends : rest = []
                    · subst ends
                      rw [List.append_nil]
                      by_cases plain' : IsInteger n u
                      · exact .inl ⟨m, n, rfl, rfl, .range plain plain' lowM (by omega) highN⟩
                      · exact .inr fun flags a => .secondPort ⟨n, number', lowN, highN, plain'⟩
                    · exact .inr fun flags a => .behindPorts number' lowN highN ends stops'
              · split at after
                · next eq => cases eq
                · next eq => exact absurd (List.cons.inj eq).1 dash
                · cases after
        · refine .inr fun flags a => .port ⟨m, number, lowM, highM, plain⟩ ?_
          cases behind with
          | nil => exact fun c mem => by cases mem
          | cons c behind =>
              intro d mem
              obtain rfl := Option.some.inj mem
              split at after
              · next eq => cases eq
              · next eq => exact (List.cons.inj eq).1
              · cases after

end Ports

/-! ## Patterns -/

section Patterns
variable {s t : Text} {flags : Tapmp} {any : Bool} {addr : Option TorAddr} {r : Pattern} {mask port : Option Text}

theorem torAddrParseMaskPorts_iff : torAddrParseMaskPorts s flags = some r ↔
    s.length ≤ maxAddressLength ∧ ∃ pieces any bits low high, cut s = some pieces ∧
      parseAddress flags pieces.address = some (r.addr, any) ∧ parseMask r.addr any pieces.mask = some bits ∧
        parsePortRange pieces.port = some (low, high) ∧ r.maskbits = UInt8.ofNat bits.toNat ∧
          r.portMin = UInt16.ofNat low.toNat ∧ r.portMax = UInt16.ofNat high.toNat := by
  constructor
  · intro read
    rw [torAddrParseMaskPorts] at read
    split at read
    · cases read
    · next short =>
        obtain ⟨pieces, first, read⟩ := Option.bind_eq_some_iff.mp read
        obtain ⟨⟨addr, any⟩, second, read'⟩ := Option.bind_eq_some_iff.mp read
        obtain ⟨bits, third, read''⟩ := Option.bind_eq_some_iff.mp read'
        obtain ⟨⟨low, high⟩, fourth, last⟩ := Option.bind_eq_some_iff.mp read''
        obtain rfl := Option.some.inj last
        exact ⟨Nat.not_lt.mp short, pieces, any, bits, low, high, first, second, third, fourth, rfl, rfl, rfl⟩
  · rintro ⟨short, pieces, any, bits, low, high, first, second, third, fourth, mask, min, max⟩
    rw [torAddrParseMaskPorts, if_neg (Nat.not_lt.mpr short), first]
    dsimp only [Option.bind_eq_bind, Option.bind_some]
    rw [second]
    dsimp only [Option.bind_some]
    rw [third]
    dsimp only [Option.bind_some]
    rw [fourth, Option.bind_some, ← mask, ← min, ← max]

theorem cut_of_isAddress (address : IsAddress flags t any addr) (noColon : ∀ u ∈ mask, ':' ∉ u)
    (noSlash : ∀ u ∈ port, '/' ∉ u) :
    ∃ pieces, cut (t ++ tail mask port) = some pieces ∧ parseAddress flags pieces.address = some (addr, any) ∧
      pieces.mask = mask ∧ pieces.port = port := by
  by_cases first : t.head? = some '['
  · have bracketed : ∃ u words, t = '[' :: (u ++ [']']) ∧ ']' ∉ u ∧ torInetPton6 u = some words ∧
        addr = some (.inet6 (fromWords words)) ∧ any = false := by
      cases address with
      | star => cases first
      | star4 => cases first
      | star6 => cases first
      | inet quad =>
          obtain ⟨rest, rfl⟩ := List.head?_eq_some_iff.mp first
          exact absurd List.mem_cons_self (notMem_of_torInetAton quad rfl (by decide))
      | inet6 closed read => exact ⟨_, _, rfl, closed, read, rfl, rfl⟩
    obtain ⟨u, words, rfl, closed, read, rfl, rfl⟩ := bracketed
    refine ⟨⟨true, u, [], mask, port⟩, ?_, parseAddress_of_torInetPton6 read, rfl, rfl⟩
    refine cut_iff.mpr (.inl ⟨rfl, ?_, closed, List.not_mem_nil, noColon, fun _ => ⟨List.not_mem_nil, noSlash⟩⟩)
    simp
  · obtain ⟨read, -, slash, colon⟩ := parseAddress_of_isAddress address first
    refine ⟨⟨false, t, [], mask, port⟩, ?_, read, rfl, rfl⟩
    refine cut_iff.mpr (.inr ⟨rfl, rfl, ?_, rfl, slash, noColon, fun _ => ⟨colon, noSlash⟩⟩)
    cases t with
    | cons c t => exact first
    | nil => cases mask <;> cases port <;> simp [tail]

theorem IsAddress.isSome (address : IsAddress flags t any addr) (notAny : any = false) : ∃ a, addr = some a := by
  cases address with
  | star => cases notAny
  | star4 => cases notAny
  | star6 => cases notAny
  | inet => exact ⟨_, rfl⟩
  | inet6 => exact ⟨_, rfl⟩

theorem IsPattern.parse (pattern : IsPattern flags s r) : torAddrParseMaskPorts s flags = some r := by
  obtain ⟨short, t, maskText, portText, any, bits, low, high, rfl, address, isMask, isPorts, bitsEq, min, max⟩ := pattern
  obtain ⟨mask, rfl, readMask, noColon⟩ := parseMask_of_isMask isMask
  obtain ⟨port, rfl, readPorts, noSlash⟩ := parsePortRange_of_isPorts isPorts
  obtain ⟨pieces, isCut, readAddress, rfl, rfl⟩ := cut_of_isAddress address noColon noSlash
  refine torAddrParseMaskPorts_iff.mpr ⟨short, pieces, any, bits, low, high, isCut, ?_⟩
  exact ⟨readAddress, readMask, readPorts, bitsEq, min, max⟩

theorem parse_cases {bits low high : Int} (short : s.length ≤ maxAddressLength) (whole : s = t ++ tail mask port)
    (address : IsAddress flags t any r.addr) (readMask : parseMask r.addr any mask = some bits)
    (readPorts : parsePortRange port = some (low, high)) (bitsEq : r.maskbits = UInt8.ofNat bits.toNat)
    (min : r.portMin = UInt16.ofNat low.toNat) (max : r.portMax = UInt16.ofNat high.toNat) :
    IsPattern flags s r ∨ Slip flags s := by
  have ends : ∀ c ∈ (port.elim [] (':' :: ·)).head?, c = ':' := by
    cases port with
    | none => exact fun c mem => by cases mem
    | some p => exact fun c mem => (Option.some.inj mem).symm
  obtain ⟨k, rfl, isMask⟩ | ⟨u, rfl, lax⟩ | ⟨a, u, rfl, isAddr, rfl, mapped, full⟩ :=
    parseMask_cases address.isSome readMask
  · obtain ⟨m, n, rfl, rfl, isPorts⟩ | slip := parsePortRange_cases readPorts
    · exact .inl ⟨short, t, _, _, any, k, m, n, whole, address, isMask, isPorts, bitsEq, min, max⟩
    · rw [whole, tail, ← List.append_assoc]
      exact .inr (slip flags _)
  · rw [whole]
    exact .inr (.mask lax ends)
  · rw [whole]
    rw [isAddr] at address
    cases address with
    | inet => cases mapped.1
    | inet6 closed read =>
        have slip : Slip flags _ := .mapped closed read mapped.2 full ends
        rw [List.cons_append, List.append_assoc]
        exact .inr slip

theorem parse_grammar (read : torAddrParseMaskPorts s flags = some r) : IsPattern flags s r ∨ Slip flags s := by
  obtain ⟨short, ⟨bracket, t, gap, mask, port⟩, any, bits, low, high, isCut, readAddress, readMask, readPorts, values⟩ :=
    torAddrParseMaskPorts_iff.mp read
  obtain ⟨bitsEq, min, max⟩ := values
  dsimp only at readAddress readMask readPorts
  obtain ⟨-, whole, closed, clean⟩ | ⟨-, whole, -, -, clean⟩ := cut_iff.mp isCut
  · dsimp only at whole closed clean
    cases six : torInetPton6 t with
    | none =>
        rw [whole]
        exact .inr (.bracket closed (parseAddress_cases readAddress six))
    | some words =>
        have known : parseAddress flags t = _ := parseAddress_of_torInetPton6 six
        rw [known] at readAddress
        obtain ⟨isAddr, rfl⟩ := Prod.mk.inj (Option.some.inj readAddress)
        by_cases more : gap = []
        · subst more
          have address : IsAddress flags ('[' :: (t ++ [']'])) false r.addr := isAddr ▸ IsAddress.inet6 closed six
          refine parse_cases short ?_ address readMask readPorts bitsEq min max
          rw [whole]
          simp
        · rw [whole]
          refine .inr (.behindBracket closed six more clean.slash ?_)
          cases mask with
          | some m => exact .inl rfl
          | none =>
              refine .inr ⟨(clean.noMask rfl).1, ?_⟩
              cases port with
              | none => exact fun c mem => by cases mem
              | some p => exact fun c mem => (Option.some.inj mem).symm
  · dsimp only at whole clean
    cases six : torInetPton6 t with
    | none => exact parse_cases short whole (parseAddress_cases readAddress six) readMask readPorts bitsEq min max
    | some words =>
        rw [whole]
        refine .inr (.noBracket six ?_)
        cases mask with
        | some m => rfl
        | none => exact absurd (colon_of_torInetPton6 six) (clean.noMask rfl).1

end Patterns

def HasForm (flags : Tapmp) (s : Text) : Prop :=
  ∃ address mask ports any addr low high, s = address ++ (mask ++ ports) ∧ IsAddress flags address any addr ∧
    (mask = [] ∨ ∃ n t, mask = '/' :: t ∧ (IsInteger n t ∧ n ≤ addr.elim 128 TorAddr.width ∨ IsNetmask n t)) ∧
      IsPorts ports low high

end TorJet.Policy
