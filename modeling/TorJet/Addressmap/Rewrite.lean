import Mathlib.Algebra.Group.Int.Defs
import TorJet.Addressmap.Map
import TorJet.Base.Machine

/-!
# Rewriting an address

`addressmap_rewrite` follows the entries of the map from an address to the next.
-/

namespace TorJet.Addressmap
open Base Net

/-- The flags of `addressmap_rewrite`. -/
structure RewriteFlags where
  useIpv4Dns : Bool
  useIpv6Dns : Bool
  useMapaddress : Bool
  useAutomap : Bool
  useTrackexit : Bool
  deriving DecidableEq

/-- `strlcpy` into a buffer that holds `dst` -/
def strlcpy (dst src : Text) (siz : Nat) : Text := if siz = 0 then dst else src.take (siz - 1)

def strlcat (dst src : Text) (siz : Nat) : Text := if siz ≤ dst.length then dst else dst ++ src.take (siz - dst.length - 1)

def mayUse (flags : RewriteFlags) (ent : Entry) (newAddress : Text) : Bool :=
  match ent.source with
  | .dns =>
      match torAddrParse newAddress with
      | some addr => if addr.isV6 then flags.useIpv6Dns else flags.useIpv4Dns
      | none => true
  | .controller | .torrc => flags.useMapaddress
  | .automap => flags.useAutomap
  | .trackexit => flags.useTrackexit
  | .none => false

namespace State
variable (s : State)

/-- The loop of `addressmap_match_superdomains`, after what is before `cp`; the address comes back as it is left. -/
def matchSuperdomains (before : Text) : Text → Option Entry × Text
  | [] => (none, before)
  | c :: cp =>
      if c = '.' then
        match s.addressmap.lookup (cp.map Char.toLower) with
        | some val =>
            if val.srcWildcard then (some val, if val.dstWildcard then before else before ++ c :: cp)
            else matchSuperdomains (before ++ [c]) cp
        | none => matchSuperdomains (before ++ [c]) cp
      else matchSuperdomains (before ++ [c]) cp

def addressmapMatchSuperdomains (address : Text) : Option Entry × Text := s.matchSuperdomains [] address

def exactMatch (address : Text) : Option (Entry × Text) := do
  let ent ← s.addressmap.lookup address
  let newAddress ← ent.newAddress
  some (ent, newAddress)

/-- One pass of the loop of `addressmap_rewrite`: the address as it is left, and the entry unless the loop ends. -/
def rewriteOnce (maxlen : Nat) (flags : RewriteFlags) (address : Text) : Text × Option Entry :=
  match s.exactMatch address with
  | some (ent, newAddress) =>
      if ent.srcWildcard && !ent.dstWildcard && strcasecmp address newAddress then (address, none)
      else if mayUse flags ent newAddress then (strlcpy address newAddress maxlen, some ent)
      else (address, none)
  | none =>
      let (found, address) := s.addressmapMatchSuperdomains address
      match found with
      | none => (address, none)
      | some ent =>
          match ent.newAddress with
          | none => (address, none)
          | some newAddress =>
              if mayUse flags ent newAddress then
                if ent.dstWildcard then (strlcat (strlcat address ['.'] maxlen) newAddress maxlen, some ent)
                else (strlcpy address newAddress maxlen, some ent)
              else (address, none)

/-- What `addressmap_rewrite` leaves behind. -/
structure Rewritten where
  address : Text
  rewrites : Nat
  expires : Int
  exitSource : Source

def Rewritten.next (r : Rewritten) (addrOrig address : Text) (ent : Entry) : Rewritten where
  address := address
  rewrites := r.rewrites + 1
  expires := if 1 < ent.expires ∧ ent.expires < r.expires then ent.expires else r.expires
  exitSource :=
    if strcmpend address ".exit".toList && !strcmpend addrOrig ".exit".toList && r.exitSource = .none then ent.source
    else r.exitSource

/-- The loop of `addressmap_rewrite`. -/
def rewriteLoop (maxlen : Nat) (flags : RewriteFlags) (addrOrig : Text) : Nat → Rewritten → Rewritten
  | 0, r => r
  | left + 1, r =>
      match s.rewriteOnce maxlen flags r.address with
      | (address, none) => { r with address }
      | (address, some ent) => rewriteLoop maxlen flags addrOrig left (r.next addrOrig address ent)

/-- `addressmap_rewrite`; it returns whether there were rewrites. -/
def addressmapRewrite (address : Text) (maxlen : Nat) (flags : RewriteFlags) : Bool × Rewritten :=
  let r := s.rewriteLoop maxlen flags address 16 ⟨address, 0, timeMax, .none⟩
  (0 < r.rewrites, r)

/-! ## Applying mappings -/

/-- The entry of the longest parent domain that has one for the names below it; `p` is what comes before the domain. -/
structure ParentMatch (address p d : Text) (ent : Entry) : Prop where
  parent : address = p ++ '.' :: d
  mapped : s.addressmap.lookup (d.map Char.toLower) = some ent
  wildcard : ent.srcWildcard = true
  longest : ∀ p' d' ent', address = p' ++ '.' :: d' → d.length < d'.length →
    s.addressmap.lookup (d'.map Char.toLower) = some ent' → ent'.srcWildcard = false

inductive Applies (maxlen : Nat) (flags : RewriteFlags) : Text → Text → Prop
  | exactly {address newAddress : Text} {ent : Entry} (found : s.exactMatch address = some (ent, newAddress))
      (incomplete : (ent.srcWildcard && !ent.dstWildcard && strcasecmp address newAddress) = false)
      (permitted : mayUse flags ent newAddress = true) : Applies maxlen flags address (newAddress.take (maxlen - 1))
  | parent {address newAddress p d : Text} {ent : Entry} (notExact : s.exactMatch address = none)
      (found : s.ParentMatch address p d ent) (target : ent.newAddress = some newAddress)
      (permitted : mayUse flags ent newAddress = true) :
      Applies maxlen flags address ((if ent.dstWildcard then p ++ '.' :: newAddress else newAddress).take (maxlen - 1))

def Refused (flags : RewriteFlags) (address : Text) : Prop :=
  s.exactMatch address = none ∧ ∃ p d ent, s.ParentMatch address p d ent ∧ ent.dstWildcard = true ∧
    ∀ newAddress ∈ ent.newAddress, mayUse flags ent newAddress = false

def RewritesByMappings (address : Text) (maxlen : Nat) (flags : RewriteFlags) : Prop :=
  ∃ n a, n ≤ 16 ∧ Steps (s.Applies maxlen flags) n address a ∧ (n < 16 → ∀ b, ¬ s.Applies maxlen flags a b) ∧
    (s.addressmapRewrite address maxlen flags).2.address = a ∧
    ((s.addressmapRewrite address maxlen flags).1 = true ↔ 0 < n)

end State

section Lemmas
open State
variable {s : State} {maxlen : Nat} {flags : RewriteFlags} {address a b c p d p' d' before cp : Text} {ent ent' : Entry}

theorem State.ParentMatch.unique (one : s.ParentMatch address p d ent) (other : s.ParentMatch address p' d' ent') :
    p = p' ∧ d = d' ∧ ent = ent' := by
  have notLonger : ¬ d.length < d'.length := by
    intro longer
    have plain := one.longest p' d' ent' other.parent longer other.mapped
    rw [other.wildcard] at plain
    cases plain
  have notShorter : ¬ d'.length < d.length := by
    intro longer
    have plain := other.longest p d ent one.parent longer one.mapped
    rw [one.wildcard] at plain
    cases plain
  have same := one.parent.symm.trans other.parent
  obtain ⟨before, after⟩ := List.append_inj' same (by rw [List.length_cons, List.length_cons]; omega)
  obtain rfl := (List.cons.inj after).2
  exact ⟨before, rfl, Option.some.inj (one.mapped.symm.trans other.mapped)⟩

theorem State.Applies.det (one : s.Applies maxlen flags a b) (other : s.Applies maxlen flags a c) : b = c := by
  cases one with
  | exactly found =>
      cases other with
      | exactly found' =>
          rw [found] at found'
          rw [(Prod.mk.inj (Option.some.inj found')).2]
      | parent notExact =>
          rw [found] at notExact
          cases notExact
  | parent notExact found target =>
      cases other with
      | exactly found' =>
          rw [notExact] at found'
          cases found'
      | parent _ found' target' =>
          obtain ⟨rfl, rfl, rfl⟩ := found.unique found'
          rw [target] at target'
          rw [Option.some.inj target']

theorem matchSuperdomains_hit (mapped : s.addressmap.lookup (cp.map Char.toLower) = some ent) (wildcard : ent.srcWildcard = true) :
    s.matchSuperdomains before ('.' :: cp) = (some ent, if ent.dstWildcard then before else before ++ '.' :: cp) := by
  rw [matchSuperdomains, if_pos rfl, mapped]
  exact if_pos wildcard

theorem matchSuperdomains_skip {c : Char}
    (plain : c = '.' → ∀ ent, s.addressmap.lookup (cp.map Char.toLower) = some ent → ent.srcWildcard = false) :
    s.matchSuperdomains before (c :: cp) = s.matchSuperdomains (before ++ [c]) cp := by
  rw [matchSuperdomains]
  split
  · rename_i dot
    cases mapped : s.addressmap.lookup (cp.map Char.toLower) with
    | none => rfl
    | some ent =>
        have other := plain dot ent mapped
        dsimp only
        rw [other]
        rfl
  · rfl

theorem matchSuperdomains_spec (before cp : Text) :
    (s.matchSuperdomains before cp = (none, before ++ cp) ∧
        ∀ p d ent, cp = p ++ '.' :: d → s.addressmap.lookup (d.map Char.toLower) = some ent → ent.srcWildcard = false) ∨
      ∃ p d ent, s.ParentMatch cp p d ent ∧
        s.matchSuperdomains before cp = (some ent, if ent.dstWildcard then before ++ p else before ++ cp) := by
  induction cp generalizing before with
  | nil =>
      refine .inl ⟨by rw [matchSuperdomains, List.append_nil], fun p d ent parent => ?_⟩
      cases p <;> cases parent
  | cons c cp ih =>
      have shift (t : Text) : before ++ [c] ++ t = before ++ c :: t := by rw [List.append_assoc, List.singleton_append]
      by_cases hit : c = '.' ∧ ∃ ent, s.addressmap.lookup (cp.map Char.toLower) = some ent ∧ ent.srcWildcard = true
      · obtain ⟨rfl, ent, mapped, wildcard⟩ := hit
        refine .inr ⟨[], cp, ent, ⟨rfl, mapped, wildcard, fun p' d' ent' parent longer => ?_⟩, ?_⟩
        · have lengths := congrArg List.length parent
          rw [List.length_append, List.length_cons, List.length_cons] at lengths
          omega
        · rw [matchSuperdomains_hit mapped wildcard, List.append_nil]
      · have plain : c = '.' → ∀ ent, s.addressmap.lookup (cp.map Char.toLower) = some ent → ent.srcWildcard = false := by
          intro dot ent mapped
          cases wildcard : ent.srcWildcard with
          | false => rfl
          | true => exact absurd ⟨dot, ent, mapped, wildcard⟩ hit
        rw [matchSuperdomains_skip plain]
        obtain ⟨none, others⟩ | ⟨p, d, ent, found, result⟩ := ih (before ++ [c])
        · refine .inl ⟨by rw [none, shift], fun p d ent parent mapped => ?_⟩
          cases p with
          | nil =>
              obtain ⟨dot, rfl⟩ := List.cons.inj parent
              exact plain dot ent mapped
          | cons q p => exact others p d ent (List.cons.inj parent).2 mapped
        · refine .inr ⟨c :: p, d, ent, ⟨congrArg (c :: ·) found.parent, found.mapped, found.wildcard, ?_⟩, ?_⟩
          · intro p' d' ent' parent longer mapped
            cases p' with
            | nil =>
                obtain ⟨dot, rfl⟩ := List.cons.inj parent
                exact plain dot ent' mapped
            | cons q p' => exact found.longest p' d' ent' (List.cons.inj parent).2 longer mapped
          · rw [result, shift, shift]

theorem strlcat_cut {dst src : Text} {siz : Nat} (fits : dst.length < siz) : strlcat dst src siz = (dst ++ src).take (siz - 1) := by
  have whole : dst.take (siz - 1) = dst := List.take_of_length_le (by omega)
  have room : siz - dst.length - 1 = siz - 1 - dst.length := by omega
  rw [strlcat, if_neg (by omega), List.take_append, whole, room]

theorem take_take_append (x y : Text) (k : Nat) : (x.take k ++ y).take k = (x ++ y).take k := by
  obtain le | less := Nat.le_total x.length k
  · rw [List.take_of_length_le le]
  · have full : (x.take k).length = k := List.length_take_of_le less
    rw [List.take_append_of_le_length (by omega), List.take_take, Nat.min_self, List.take_append_of_le_length less]

theorem strlcat_dot {p newAddress : Text} {siz : Nat} (fits : p.length < siz) :
    strlcat (strlcat p ['.'] siz) newAddress siz = (p ++ '.' :: newAddress).take (siz - 1) := by
  have first : strlcat p ['.'] siz = (p ++ ['.']).take (siz - 1) := strlcat_cut fits
  have fits' : ((p ++ ['.']).take (siz - 1)).length < siz := by
    rw [List.length_take]
    omega
  rw [first, strlcat_cut fits', take_take_append, List.append_assoc, List.singleton_append]

inductive Pass (s : State) (maxlen : Nat) (flags : RewriteFlags) (address : Text) : Text × Option Entry → Prop
  | applied {b : Text} {ent : Entry} (applies : s.Applies maxlen flags address b) : Pass s maxlen flags address (b, some ent)
  | stopped (stuck : ∀ b, ¬ s.Applies maxlen flags address b) (notRefused : ¬ s.Refused flags address) :
      Pass s maxlen flags address (address, none)
  | cutOff {p : Text} (stuck : ∀ b, ¬ s.Applies maxlen flags address b) (refused : s.Refused flags address)
      (shorter : p.length < address.length) : Pass s maxlen flags address (p, none)

theorem strlcpy_fits {dst src : Text} (room : maxlen ≠ 0) : strlcpy dst src maxlen = src.take (maxlen - 1) := if_neg room

theorem rewriteOnce_exact {newAddress : Text} (room : maxlen ≠ 0) (found : s.exactMatch address = some (ent, newAddress)) :
    Pass s maxlen flags address (s.rewriteOnce maxlen flags address) := by
  have notRefused : ¬ s.Refused flags address := by
    rintro ⟨none, -⟩
    rw [found] at none
    cases none
  have only {b : Text} (applies : s.Applies maxlen flags address b) :
      (ent.srcWildcard && !ent.dstWildcard && strcasecmp address newAddress) = false ∧ mayUse flags ent newAddress = true := by
    cases applies with
    | exactly found' incomplete permitted =>
        rw [found] at found'
        obtain ⟨rfl, rfl⟩ := Prod.mk.inj (Option.some.inj found')
        exact ⟨incomplete, permitted⟩
    | parent notExact =>
        rw [found] at notExact
        cases notExact
  unfold rewriteOnce
  rw [found]
  dsimp only
  split_ifs with complete permitted
  · refine .stopped (fun b applies => ?_) notRefused
    rw [(only applies).1] at complete
    cases complete
  · rw [strlcpy_fits room]
    exact .applied (.exactly found (Bool.eq_false_iff.mpr complete) permitted)
  · exact .stopped (fun b applies => permitted (only applies).2) notRefused

theorem rewriteOnce_parent (fits : address.length < maxlen) (found : s.exactMatch address = none) :
    Pass s maxlen flags address (s.rewriteOnce maxlen flags address) := by
  have only {b : Text} (applies : s.Applies maxlen flags address b) : ∃ newAddress p d ent,
      s.ParentMatch address p d ent ∧ ent.newAddress = some newAddress ∧ mayUse flags ent newAddress = true := by
    cases applies with
    | exactly found' =>
        rw [found] at found'
        cases found'
    | parent _ parent target permitted => exact ⟨_, _, _, _, parent, target, permitted⟩
  unfold rewriteOnce
  rw [found]
  dsimp only
  obtain ⟨result, others⟩ | ⟨p, d, ent, parent, result⟩ := matchSuperdomains_spec (s := s) [] address
  · have none {p d : Text} {ent : Entry} (parent : s.ParentMatch address p d ent) : False := by
      have plain := others p d ent parent.parent parent.mapped
      rw [parent.wildcard] at plain
      cases plain
    rw [addressmapMatchSuperdomains, result]
    refine .stopped (fun b applies => ?_) ?_
    · obtain ⟨_, _, _, _, parent, -⟩ := only applies
      exact none parent
    · rintro ⟨-, p, d, ent, parent, -⟩
      exact none parent
  · have shorter : p.length < address.length := by
      rw [parent.parent, List.length_append, List.length_cons]
      omega
    -- where the mapping is not used, it is the kind of the entry that decides what is left of the address
    have unused (forbidden : ∀ newAddress ∈ ent.newAddress, mayUse flags ent newAddress = false) :
        Pass s maxlen flags address (if ent.dstWildcard then [] ++ p else [] ++ address, none) := by
      have stuck : ∀ b, ¬ s.Applies maxlen flags address b := by
        intro b applies
        obtain ⟨newAddress, p', d', ent', parent', target, permitted⟩ := only applies
        obtain ⟨rfl, rfl, rfl⟩ := parent.unique parent'
        rw [forbidden newAddress target] at permitted
        cases permitted
      split
      · rename_i dst
        exact .cutOff stuck ⟨found, p, d, ent, parent, dst, forbidden⟩ shorter
      · rename_i plain
        refine .stopped stuck ?_
        rintro ⟨-, p', d', ent', parent', dst, -⟩
        obtain ⟨rfl, rfl, rfl⟩ := parent.unique parent'
        exact plain dst
    rw [addressmapMatchSuperdomains, result]
    dsimp only
    cases target : ent.newAddress with
    | none => exact unused fun newAddress mem => by rw [target] at mem; cases mem
    | some newAddress =>
        dsimp only
        by_cases permitted : mayUse flags ent newAddress = true
        swap
        · rw [if_neg permitted]
          refine unused fun other mem => ?_
          rw [target] at mem
          obtain rfl := Option.some.inj mem
          exact Bool.eq_false_iff.mpr permitted
        rw [if_pos permitted]
        split_ifs with dst
        · have applies : s.Applies maxlen flags address _ := .parent found parent target permitted
          rw [if_pos dst] at applies
          rw [List.nil_append, strlcat_dot (shorter.trans fits)]
          exact .applied applies
        · have applies : s.Applies maxlen flags address _ := .parent found parent target permitted
          rw [if_neg dst] at applies
          rw [List.nil_append, strlcpy_fits (by omega)]
          exact .applied applies

theorem rewriteOnce_pass (fits : address.length < maxlen) : Pass s maxlen flags address (s.rewriteOnce maxlen flags address) := by
  cases found : s.exactMatch address with
  | some mapping => exact rewriteOnce_exact (by omega) found
  | none => exact rewriteOnce_parent fits found

theorem State.Applies.fits (applies : s.Applies maxlen flags a b) (fits : a.length < maxlen) : b.length < maxlen := by
  cases applies <;>
  · rw [List.length_take]
    omega

theorem rewriteLoop_spec (addrOrig : Text) (left : Nat) (r : Rewritten) (fits : r.address.length < maxlen) :
    ∃ n a, n ≤ left ∧ Steps (s.Applies maxlen flags) n r.address a ∧
      (s.rewriteLoop maxlen flags addrOrig left r).rewrites = r.rewrites + n ∧
      (n = left ∧ (s.rewriteLoop maxlen flags addrOrig left r).address = a ∨
        n < left ∧ (∀ b, ¬ s.Applies maxlen flags a b) ∧
          (¬ s.Refused flags a ∧ (s.rewriteLoop maxlen flags addrOrig left r).address = a ∨
            s.Refused flags a ∧ (s.rewriteLoop maxlen flags addrOrig left r).address.length < a.length)) := by
  induction left generalizing r with
  | zero => exact ⟨0, r.address, Nat.le_refl _, .zero _, rfl, .inl ⟨rfl, rfl⟩⟩
  | succ left ih =>
      have pass : Pass s maxlen flags r.address (s.rewriteOnce maxlen flags r.address) := rewriteOnce_pass fits
      unfold rewriteLoop
      generalize s.rewriteOnce maxlen flags r.address = out at pass
      cases pass with
      | applied applies =>
          rename_i b ent
          obtain ⟨n, a, le, steps, count, rest⟩ := ih (r.next addrOrig b ent) (applies.fits fits)
          have total : (r.next addrOrig b ent).rewrites + n = r.rewrites + (n + 1) := by
            have one : (r.next addrOrig b ent).rewrites = r.rewrites + 1 := rfl
            omega
          refine ⟨n + 1, a, Nat.succ_le_succ le, .succ applies steps, count.trans total, ?_⟩
          obtain ⟨rfl, same⟩ | ⟨less, stuck, rest⟩ := rest
          · exact .inl ⟨rfl, same⟩
          · exact .inr ⟨Nat.succ_lt_succ less, stuck, rest⟩
      | stopped stuck notRefused =>
          exact ⟨0, r.address, Nat.zero_le _, .zero _, rfl, .inr ⟨Nat.succ_pos _, stuck, .inl ⟨notRefused, rfl⟩⟩⟩
      | cutOff stuck refused shorter =>
          exact ⟨0, r.address, Nat.zero_le _, .zero _, rfl, .inr ⟨Nat.succ_pos _, stuck, .inr ⟨refused, shorter⟩⟩⟩

/-- An address is rewritten by mappings alone just when no address on the way is one whose end a parent domain maps
and the flags forbid. -/
theorem rewritesByMappings_iff (address : Text) (maxlen : Nat) (flags : RewriteFlags) (fits : address.length < maxlen) :
    s.RewritesByMappings address maxlen flags ↔
      ∀ n < 16, ∀ a, Steps (s.Applies maxlen flags) n address a → ¬ s.Refused flags a := by
  have det : ∀ a b c, s.Applies maxlen flags a b → s.Applies maxlen flags a c → b = c := fun a b c one other => one.det other
  obtain ⟨n, a, le, steps, count, rest⟩ :=
    @rewriteLoop_spec s maxlen flags address 16 ⟨address, 0, timeMax, .none⟩ fits
  have changed : (s.addressmapRewrite address maxlen flags).1 = true ↔ 0 < n := by
    rw [addressmapRewrite, count, Nat.zero_add, decide_eq_true_eq]
  constructor
  · rintro ⟨n', a', le', steps', stuck', same, -⟩ k less b steps₀ refused
    have stuck₀ : ∀ c, ¬ s.Applies maxlen flags b c := by
      rintro c applies
      obtain ⟨none, p, d, ent, parent, -, forbidden⟩ := refused
      cases applies with
      | exactly found =>
          rw [none] at found
          cases found
      | parent _ parent' target permitted =>
          obtain ⟨rfl, rfl, rfl⟩ := parent.unique parent'
          rw [forbidden _ target] at permitted
          cases permitted
    have early : n' < 16 := (Steps.le_of_stuck det steps₀ stuck₀ steps').trans_lt less
    obtain ⟨-, rfl⟩ := Steps.stuck_unique det steps₀ stuck₀ steps' (stuck' early)
    obtain ⟨rfl, -⟩ | ⟨-, stuck, ends⟩ := rest
    · exact absurd (Steps.le_of_stuck det steps₀ stuck₀ steps) (Nat.not_le.mpr less)
    · obtain ⟨-, rfl⟩ := Steps.stuck_unique det steps₀ stuck₀ steps stuck
      obtain ⟨notRefused, -⟩ | ⟨-, shorter⟩ := ends
      · exact notRefused refused
      · exact absurd (congrArg List.length same) (Nat.ne_of_lt shorter)
  · intro clear
    obtain ⟨rfl, same⟩ | ⟨less, stuck, ends⟩ := rest
    · exact ⟨16, a, le, steps, fun lt => absurd lt (Nat.lt_irrefl 16), same, changed⟩
    · obtain ⟨-, same⟩ | ⟨refused, -⟩ := ends
      · exact ⟨n, a, le, steps, fun _ => stuck, same, changed⟩
      · exact absurd refused (clear n less a steps)

end Lemmas

def oneHost : State :=
  { State.initial with
    addressmap := AList.singleton "example.com".toList ⟨some "www.example.org".toList, 0, .torrc, true, false, 0⟩ }

theorem oneHost_rewrites :
    oneHost.RewritesByMappings "mail.example.com".toList 256 ⟨false, false, true, false, false⟩ := by
  refine (rewritesByMappings_iff _ _ _ (by decide)).mpr ?_
  rintro n - a - ⟨-, p, d, ent, parent, dst, -⟩
  have mapped := AList.mem_lookup_iff.mp parent.mapped
  obtain ⟨-, rfl⟩ := Sigma.mk.inj (List.mem_singleton.mp mapped)
  cases dst

def twoDomains : State :=
  { State.initial with
    addressmap := (AList.singleton "a.com".toList ⟨some "b.com".toList, 0, .torrc, true, true, 0⟩).insert "b.com".toList
      ⟨some "a.com".toList, 0, .torrc, true, true, 0⟩ }

/-- Flags that forbid a mapping leave of the address what is before the domain. -/
theorem refused_truncates : ¬ ∀ (s : State) (address : Text) (maxlen : Nat) (flags : RewriteFlags),
    address.length < maxlen → s.RewritesByMappings address maxlen flags := by
  intro all
  obtain ⟨n, a, -, steps, -, same, changed⟩ :=
    all twoDomains "www.a.com".toList 256 ⟨false, false, false, true, true⟩ (by decide)
  have unchanged : (twoDomains.addressmapRewrite "www.a.com".toList 256 ⟨false, false, false, true, true⟩).1 = false := by
    decide +kernel
  have left : (twoDomains.addressmapRewrite "www.a.com".toList 256 ⟨false, false, false, true, true⟩).2.address =
      "www".toList := by decide +kernel
  obtain rfl : n = 0 := by
    rw [unchanged] at changed
    have none : ¬ 0 < n := fun pos => Bool.false_ne_true (changed.mpr pos)
    omega
  cases steps
  rw [left] at same
  exact absurd same (by decide)

end TorJet.Addressmap
