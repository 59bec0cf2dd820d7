import TorJet.Net.CString
import TorJet.Tunnel.Connect

/-!
# Local Host headers

`host_header_is_localhost` takes what `tor_addr_parse` returns for a success flag, where it is an address family: it
finds the name of the local host, and none of its addresses.
-/

namespace TorJet.Tunnel
open Base Net

/-- A port as `tor_parse_long` reads one. -/
def IsPort (p : Text) : Prop := ∃ n, IsNumber false n p ∧ 1 ≤ n ∧ n ≤ 65535

def IsLocalName (h : Text) : Prop := strcasecmp h "localhost".toList = true

def IsLoopback4 (h : Text) : Prop := ∃ a, torInetAton h = some a ∧ a / 2 ^ 24 = 127

/-- The text of `::1` -/
def IsLoopback6 (h : Text) : Prop := torInetPton6 h = some [0, 0, 0, 0, 0, 0, 0, 1]

def IsBracketed6 (h : Text) : Prop := ∃ inner, h = '[' :: inner ++ [']'] ∧ IsLoopback6 inner

def NamesLocal (v : Text) : Prop := IsLocalName v ∨ ∃ h p, v = h ++ ':' :: p ∧ IsLocalName h ∧ IsPort p

def IsLoopbackAddress (v : Text) : Prop :=
  IsLoopback4 v ∨ IsLoopback6 v ∨ IsBracketed6 v ∨
    ∃ h p, v = h ++ ':' :: p ∧ (IsLoopback4 h ∨ IsBracketed6 h) ∧ IsPort p

/-! ## The first character -/

section Heads
variable {s rest : Text} {c : Char}

theorem torInetPton6_head (notDigit : torIsxdigit c = false) (notColon : c ≠ ':') : torInetPton6 (c :: rest) = none := by
  have stops (n : Nat) (t : Text) (w : Words) : readWords n (c :: t) w = none := by
    cases n with
    | zero => rfl
    | succ n => simp [readWords, notDigit, notColon]
  unfold torInetPton6
  split
  · rfl
  split
  · rw [stops]
    rfl
  · rename_i dot found
    dsimp only
    split
    · rfl
    · rename_i ends
      -- the words before a dotted quad start with the text
      obtain ⟨t, start⟩ : ∃ t, ((c :: rest).take dot).rdropWhile torIsdigit = c :: t := by
        have pre := (List.rdropWhile_prefix torIsdigit ((c :: rest).take dot)).trans (List.take_prefix dot (c :: rest))
        generalize ((c :: rest).take dot).rdropWhile torIsdigit = words at ends pre
        cases words with
        | nil => exact absurd (not_not.mp ends) (by decide)
        | cons d t =>
            obtain ⟨u, eq⟩ := pre
            exact ⟨t, by rw [(List.cons.inj eq).1]⟩
      rw [start]
      cases scanQuad ((c :: rest).drop (c :: t).length) with
      | none => rfl
      | some octets =>
          dsimp only [bind, Option.bind]
          split
          · rfl
          · rw [stops]

theorem scanUnsigned_head {width : Nat} {n : Nat} {rest : Text} (read : scanUnsigned width s = some (n, rest)) :
    ∃ c t, s = c :: t ∧ torIsdigit c = true := by
  unfold scanUnsigned at read
  dsimp only at read
  split at read
  · cases read
  · rename_i some
    cases s with
    | nil => simp at some
    | cons c t =>
        refine ⟨c, t, rfl, ?_⟩
        cases width with
        | zero => simp at some
        | succ width =>
            cases digit : torIsdigit c with
            | true => rfl
            | false => simp [digit] at some

theorem torInetAton_head {a : Nat} (read : torInetAton s = some a) : ∃ c t, s = c :: t ∧ torIsdigit c = true := by
  unfold torInetAton scanQuad at read
  cases first : scanUnsigned 3 s with
  | none =>
      rw [first] at read
      cases read
  | some out => exact scanUnsigned_head first

theorem IsLocalName.map (name : IsLocalName s) : s.map Char.toLower = "localhost".toList := by
  have same := of_decide_eq_true name
  exact same.trans (by decide)

theorem IsLocalName.head (name : IsLocalName s) : ∃ c t, s = c :: t ∧ c.toLower = 'l' := by
  have map := name.map
  cases s with
  | nil => cases map
  | cons c t => exact ⟨c, t, rfl, (List.cons.inj map).1⟩

theorem toLower_l (lower : c.toLower = 'l') : torIsxdigit c = false ∧ c ≠ ':' ∧ c ≠ '[' := by
  have is : c = 'l' ∨ c = 'L' := by
    unfold Char.toLower at lower
    split at lower
    · right
      have val := congrArg Char.val lower
      have upper : c.val = 'l'.val - ('a'.val - 'A'.val) := by
        rw [← val]
        simp
      apply Char.ext
      rw [upper]
      decide
    · exact .inl lower
  obtain rfl | rfl := is <;> decide

theorem IsLoopbackAddress.head (address : IsLoopbackAddress s) :
    ∃ c t, s = c :: t ∧ (torIsxdigit c = true ∨ c = ':' ∨ c = '[') := by
  have four (h : Text) (address : IsLoopback4 h) : ∃ c t, h = c :: t ∧ (torIsxdigit c = true ∨ c = ':' ∨ c = '[') := by
    obtain ⟨a, read, -⟩ := address
    obtain ⟨c, t, rfl, digit⟩ := torInetAton_head read
    exact ⟨c, t, rfl, .inl (by rw [torIsxdigit, digit]; rfl)⟩
  have bracketed (h : Text) (address : IsBracketed6 h) :
      ∃ c t, h = c :: t ∧ (torIsxdigit c = true ∨ c = ':' ∨ c = '[') := by
    obtain ⟨inner, rfl, -⟩ := address
    exact ⟨'[', inner ++ [']'], rfl, .inr (.inr rfl)⟩
  obtain address | address | address | ⟨h, p, rfl, address, -⟩ := address
  · exact four s address
  · cases s with
    | nil => cases address
    | cons c t =>
        refine ⟨c, t, rfl, ?_⟩
        by_contra other
        rw [not_or, not_or] at other
        have none := @torInetPton6_head t c (Bool.eq_false_iff.mpr other.1) other.2.1
        rw [IsLoopback6, none] at address
        cases address
  · exact bracketed s address
  · obtain ⟨c, t, rfl, first⟩ := address.elim (four h) (bracketed h)
    exact ⟨c, t ++ ':' :: p, rfl, first⟩

end Heads

/-! ## What is found -/

section Found
variable {v h p : Text}

theorem torAddrParseResult_ne_zero (src : Text) : torAddrParseResult src ≠ 0 := by
  unfold torAddrParseResult
  split <;> decide

theorem hostHeaderIsLocalhost_iff :
    hostHeaderIsLocalhost v = true ↔ ∃ h port, torAddrPortSplit v = some (h, port) ∧ IsLocalName h := by
  unfold hostHeaderIsLocalhost IsLocalName
  cases torAddrPortSplit v with
  | none => simp
  | some out =>
      obtain ⟨host, port⟩ := out
      simp [torAddrParseResult_ne_zero]

theorem isPort_iff : (torParseLong p 1 65535).toNat ≠ 0 ↔ IsPort p := by
  refine torParseLong_ne_zero.trans (exists_congr fun n => and_congr_right fun _ => ?_)
  omega

theorem IsPort.noColon (port : IsPort p) : ':' ∉ p := by
  obtain ⟨n, ⟨blanks, sign, digits, rfl, spaces, isSign, -, all, -⟩, -, -⟩ := port
  rw [List.mem_append, List.mem_append]
  rintro (mem | mem | mem)
  · cases spaces ':' mem
  · obtain rfl | rfl : sign = [] ∨ sign = ['+'] := isSign
    · cases mem
    · cases List.mem_singleton.mp mem
  · cases all ':' mem

theorem IsLocalName.noColon (name : IsLocalName h) : ':' ∉ h := by
  intro mem
  have lower := List.mem_map_of_mem (f := Char.toLower) mem
  rw [name.map] at lower
  exact absurd lower (by decide)

theorem torAddrParse_local {rest : Text} (name : IsLocalName h) : (torAddrParse (h ++ rest)).any TorAddr.isV6 = false := by
  obtain ⟨c, t, rfl, lower⟩ := name.head
  obtain ⟨notDigit, notColon, notBracket⟩ := toLower_l lower
  have notV6 : torInetPton6 (c :: (t ++ rest)) = none := torInetPton6_head notDigit notColon
  rw [torAddrParse, torAddrParseImpl, List.cons_append, List.head?_cons]
  simp only [Option.some.injEq, notBracket, false_and, if_false, or_true, if_true, notV6]
  cases torInetAton (c :: (t ++ rest)) <;> rfl

theorem hostHeaderIsLocalhost_names (v : Text) : hostHeaderIsLocalhost v = true ↔ NamesLocal v := by
  rw [hostHeaderIsLocalhost_iff]
  constructor
  · rintro ⟨host, port, split, name⟩
    unfold torAddrPortSplit at split
    split at split
    · rw [(Prod.mk.inj (Option.some.inj split)).1]
      exact .inl name
    · by_cases colon : ':' ∈ v
      · obtain ⟨h, p, rfl, last⟩ := exists_lastColon colon
        rw [splitLastColon_append h last] at split
        dsimp only at split
        split at split
        · cases split
        · rename_i isPort
          obtain ⟨rfl, -⟩ := Prod.mk.inj (Option.some.inj split)
          exact .inr ⟨h, p, rfl, name, isPort_iff.mp isPort⟩
      · rw [splitLastColon_eq_none colon] at split
        obtain ⟨rfl, -⟩ := Prod.mk.inj (Option.some.inj split)
        exact .inl name
  · rintro (name | ⟨h, p, rfl, name, isPort⟩)
    · refine ⟨v, 0, ?_, name⟩
      have notV6 := @torAddrParse_local v [] name
      rw [List.append_nil] at notV6
      rw [torAddrPortSplit, notV6, if_neg Bool.false_ne_true, splitLastColon_eq_none name.noColon]
    · refine ⟨h, (torParseLong p 1 65535).toNat, ?_, name⟩
      rw [torAddrPortSplit, torAddrParse_local name, if_neg Bool.false_ne_true, splitLastColon_append h isPort.noColon]
      exact if_neg (isPort_iff.mpr isPort)

/-- A Host header is recognised as it should be exactly where it has no loopback address. -/
theorem hostHeaderIsLocalhost_correct (v : Text) :
    (hostHeaderIsLocalhost v = true ↔ NamesLocal v ∨ IsLoopbackAddress v) ↔ ¬ IsLoopbackAddress v := by
  rw [hostHeaderIsLocalhost_names]
  constructor
  · intro right address
    obtain ⟨c, t, rfl, first⟩ := address.head
    have name : ∃ d u, c :: t = d :: u ∧ d.toLower = 'l' := by
      obtain name | ⟨h, p, split, name, -⟩ := right.mpr (.inr address)
      · exact name.head
      · obtain ⟨d, u, rfl, lower⟩ := name.head
        exact ⟨d, u ++ ':' :: p, split, lower⟩
    obtain ⟨d, u, same, lower⟩ := name
    rw [← (List.cons.inj same).1] at lower
    obtain ⟨notDigit, notColon, notBracket⟩ := toLower_l lower
    obtain digit | colon | bracket := first
    · rw [notDigit] at digit
      cases digit
    · exact notColon colon
    · exact notBracket bracket
  · intro other
    rw [or_iff_left other]

end Found

/-- `Host: 127.0.0.1` is not taken for the local host. -/
theorem loopback_not_found :
    ¬ ∀ v : Text, hostHeaderIsLocalhost v = true ↔ NamesLocal v ∨ IsLoopbackAddress v := by
  intro right
  have found := (right "127.0.0.1".toList).mpr (.inr (.inl ⟨0x7f000001, by decide, by decide⟩))
  exact absurd found (by decide)

end TorJet.Tunnel
