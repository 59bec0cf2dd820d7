import TorJet.Net.CString

/-!
# Addresses as text

`tor_inet_pton` and what is built on it: reading an address, and splitting an address from its port.
-/

namespace TorJet.Net
open Base

/-- A `tor_addr_t` that was read from a text; an IPv6 address is its eight words. -/
inductive TorAddr
  | inet (a : Nat)
  | inet6 (words : List Nat)
  deriving DecidableEq, Repr

/-- `tor_sscanf` with `"%3u.%3u.%3u.%3u%c"`, when exactly the four numbers match. -/
def scanQuad (s : Text) : Option (List Nat) := do
  let (a, s) ← scanUnsigned 3 s
  let (b, s) ← dot s
  let (c, s) ← dot s
  let (d, s) ← dot s
  if s.isEmpty then some [a, b, c, d] else none
where
  dot : Text → Option (Nat × Text)
    | '.' :: rest => scanUnsigned 3 rest
    | _ => none

def joinOctets (octets : List Nat) : Nat := octets.foldl (fun a b => a * 256 + b) 0

def torInetAton (s : Text) : Option Nat := do
  let octets ← scanQuad s
  let isOctal := (s.splitOn '.').any fun octet => 1 < octet.length && octet.head? = some '0'
  if isOctal || octets.any (255 < ·) then none else some (joinOctets octets)

structure Words where
  words : List Nat
  gapPos : Option Nat
  deriving DecidableEq

/-- The loop of `tor_inet_pton` over the words; the fuel is the number of characters left. -/
def readWords : Nat → Text → Words → Option Words
  | _, [], w => some w
  | 0, _ :: _, _ => none
  | fuel + 1, c :: rest, w =>
      if 7 < w.words.length then none
      else if torIsxdigit c then
        let digits := (c :: rest).takeWhile torIsxdigit
        let after := (c :: rest).drop digits.length
        if 4 < digits.length then none
        else
          let w := { w with words := w.words ++ [hexadecimal digits] }
          match after with
          | [] => some w
          | ':' :: after => readWords fuel after w
          | _ => none
      else if c = ':' ∧ w.gapPos = none then
        if w.words = [] then
          match rest with
          | ':' :: rest => readWords fuel rest { w with gapPos := some 0 }
          | _ => none
        else readWords fuel rest { w with gapPos := some w.words.length }
      else none

/-- `tor_inet_pton` for IPv6 from the words before a dotted quad and the words of the quad. -/
def fillGap (w : Words) (quad : List Nat) : Option (List Nat) :=
  let setWords := w.words.length + quad.length
  match w.gapPos with
  | none => if setWords = 8 then some (w.words ++ quad) else none
  | some gap =>
      if setWords < 8 then
        some (w.words.take gap ++ List.replicate (8 - setWords) 0 ++ w.words.drop gap ++ quad)
      else none

/-- `tor_inet_pton` for IPv6. -/
def torInetPton6 (s : Text) : Option (List Nat) :=
  if 2 < s.length ∧ s.getLast? = some ':' ∧ s.dropLast.getLast? ≠ some ':' then none
  else
    match s.idxOf? '.' with
    | none => (readWords s.length s ⟨[], none⟩).bind fun w => fillGap w []
    | some dot => do
        -- the dotted quad starts after the last colon before the first dot
        let words := (s.take dot).rdropWhile torIsdigit
        if words.getLast? ≠ some ':' then none
        else
          let octets ← scanQuad (s.drop words.length)
          if octets.any (255 < ·) then none
          else
            let w ← readWords words.length words ⟨[], none⟩
            fillGap w [joinOctets (octets.take 2), joinOctets (octets.drop 2)]

def torAddrParseImpl (src : Text) (allowIpv6WithoutBrackets : Bool) : Option TorAddr :=
  let bracketsDetected := src.head? = some '[' ∧ src.getLast? = some ']'
  let inner := if bracketsDetected then src.tail.dropLast else src
  let v6 := if bracketsDetected ∨ allowIpv6WithoutBrackets then torInetPton6 inner else none
  let v4 := if bracketsDetected then none else torInetAton src
  (v4.map TorAddr.inet).or (v6.map TorAddr.inet6)

def torAddrParse (src : Text) : Option TorAddr := torAddrParseImpl src true

/-- What `tor_addr_parse` returns: `AF_INET`, `AF_INET6` or -1. -/
def torAddrParseResult (src : Text) : Int :=
  match torAddrParse src with
  | some (.inet _) => 2
  | some (.inet6 _) => 10
  | none => -1

def TorAddr.isV6 : TorAddr → Bool
  | .inet _ => false
  | .inet6 _ => true

def TorAddr.isLoopback : TorAddr → Bool
  | .inet a => a / 2 ^ 24 = 127
  | .inet6 words => words = [0, 0, 0, 0, 0, 0, 0, 1]

def splitLastColon (s : Text) : Option (Text × Text) :=
  let after := s.rtakeWhile (· ≠ ':')
  if after.length = s.length then none else some (s.take (s.length - after.length - 1), after)

section LastColon
variable {v p : Text}

theorem splitLastColon_append (h : Text) (last : ':' ∉ p) : splitLastColon (h ++ ':' :: p) = some (h, p) := by
  have after : (h ++ ':' :: p).rtakeWhile (· ≠ ':') = p := by
    have all : ∀ c ∈ p.reverse, decide (c ≠ ':') = true := fun c mem =>
      decide_eq_true fun same => last (same ▸ List.mem_reverse.mp mem)
    rw [List.rtakeWhile, List.reverse_append, List.reverse_cons, List.append_assoc, List.takeWhile_append_of_pos all]
    simp
  unfold splitLastColon
  dsimp only
  rw [after, if_neg (by simp; omega), List.length_append, List.length_cons]
  have cut : h.length + (p.length + 1) - p.length - 1 = h.length := by omega
  rw [cut, List.take_left]

theorem splitLastColon_eq_none (noColon : ':' ∉ v) : splitLastColon v = none := by
  have all : v.rtakeWhile (· ≠ ':') = v := by
    rw [List.rtakeWhile_eq_self_iff]
    intro c mem
    exact decide_eq_true fun same => noColon (same ▸ mem)
  unfold splitLastColon
  dsimp only
  rw [all, if_pos rfl]

theorem exists_lastColon (colon : ':' ∈ v) : ∃ h p, v = h ++ ':' :: p ∧ ':' ∉ p := by
  obtain ⟨after, before, split, last⟩ := List.eq_append_cons_of_mem (List.mem_reverse.mpr colon)
  refine ⟨before.reverse, after.reverse, ?_, fun mem => last (List.mem_reverse.mp mem)⟩
  rw [← List.reverse_reverse v, split]
  simp

end LastColon

/-- `tor_addr_port_split`; a port of 0 means that none was given. -/
def torAddrPortSplit (addrport : Text) : Option (Text × Nat) :=
  if (torAddrParse addrport).any TorAddr.isV6 then some (addrport, 0)
  else
    match splitLastColon addrport with
    | none => some (addrport, 0)
    | some (address, port) =>
        let port := (torParseLong port 1 65535).toNat
        if port = 0 then none else some (address, port)

example : torAddrPortSplit "[2001:db8::1.2.3.4]:443".toList = some ("[2001:db8::1.2.3.4]".toList, 443) := by
  decide

end TorJet.Net

/-!
## Addresses written as text

`tor_inet_ntop`, and addresses under a mask.
-/

namespace TorJet.Net
open Base

def decimalDigits (n : Nat) : Text := Nat.toDigits 10 n

def hexDigits (n : Nat) : Text := Nat.toDigits 16 n

def torInetNtoa (a : Nat) : Text :=
  List.intercalate ['.'] ([a >>> 24 % 256, a >>> 16 % 256, a >>> 8 % 256, a % 256].map decimalDigits)

def gapLen (words : List Nat) (i : Nat) : Nat := ((words.drop i).takeWhile (· = 0)).length

/-- `longestGapPos`: the first of the longest runs of zero words, if it has more than one. -/
def longestGapPos (words : List Nat) : Option Nat :=
  let pos := (List.range words.length).foldl (fun best i => if gapLen words best < gapLen words i then i else best) 0
  if gapLen words pos ≤ 1 then none else some pos

/-- `tor_inet_ntop` for IPv6. -/
def torInetNtop6 (words : List Nat) : Text :=
  match words with
  | [0, 0, 0, 0, 0, fifth, a, b] =>
      if fifth = 0 ∧ a ≠ 0 ∧ b ≠ 0 then ':' :: ':' :: torInetNtoa (a * 65536 + b)
      else if fifth = 0xffff then ':' :: ':' :: hexDigits fifth ++ ':' :: torInetNtoa (a * 65536 + b)
      else plain words
  | _ => plain words
where
  colons (words : List Nat) : Text := List.intercalate [':'] (words.map hexDigits)
  plain (words : List Nat) : Text :=
    match longestGapPos words with
    | none => colons words
    | some pos => colons (words.take pos) ++ ':' :: ':' :: colons (words.drop (pos + gapLen words pos))

def torAddrToStr (addr : TorAddr) (decorate : Bool) : Text :=
  match addr with
  | .inet a => torInetNtoa a
  | .inet6 words => if decorate then '[' :: torInetNtop6 words ++ [']'] else torInetNtop6 words

def joinWords (words : List Nat) : Nat := words.foldl (fun a w => a * 65536 + w) 0

/-- `tor_addr_compare_masked` with `CMP_EXACT`, where it finds the addresses equal. -/
def torAddrEqMasked (a b : TorAddr) (mbits : Nat) : Bool :=
  match a, b with
  | .inet a, .inet b => a >>> (32 - mbits) = b >>> (32 - mbits)
  | .inet6 a, .inet6 b => joinWords a >>> (128 - mbits) = joinWords b >>> (128 - mbits)
  | _, _ => false

/-- `strcmpend`, where it finds the end of the text equal. -/
def strcmpend (s : Text) (ending : Text) : Bool := ending.isSuffixOf s

def strcasecmpend (s : Text) (ending : Text) : Bool := (ending.map Char.toLower).isSuffixOf (s.map Char.toLower)

end TorJet.Net
