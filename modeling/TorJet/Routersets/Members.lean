import TorJet.Routersets.Entries

/-!
# Members

The nodes of a set: what each kind of entry lists, and which part of it `routerset_contains2` asks about.
-/

namespace TorJet.Routersets
open Base Encoding Policy
open Net hiding TorAddr
open Guardstate (isLegalNickname)

/-! ## What is asked about a node -/

namespace Node
variable (n : Node)

theorem isSome_router : (n.rs <|> n.ri).isSome = true := by
  have known := n.known
  cases rs : n.rs with
  | some _ => rfl
  | none =>
      rw [rs] at known
      exact known.resolve_left Bool.false_ne_true

def router : Router := (n.rs <|> n.ri).get n.isSome_router

def nickname : Text := n.router.nickname.1

def asked : List (Option TorAddr × UInt16) :=
  if n.rs.isSome then [(some (.inet n.router.ipv4Addr), n.router.ipv4Orport)]
  else [(some (.inet n.router.ipv4Addr), n.router.ipv4Orport), (n.router.ipv6Addr.map .inet6, n.router.ipv6Orport)]

def countryOf (geo : Geoip) : Int :=
  if n.country < 0 then geoipGetCountryByAddr geo (some (.inet n.router.ipv4Addr)) else n.country

theorem nodeGetNickname_eq : nodeGetNickname n = some n.nickname := by
  rw [nodeGetNickname, ← Option.some_get n.isSome_router]
  rfl

theorem router_identity : n.router.identityDigest = n.identity := by
  have found : n.router ∈ (n.rs <|> n.ri) := Option.get_mem _
  cases rs : n.rs with
  | some rs' =>
      rw [rs] at found
      exact n.rsIdentity _ (rs ▸ found)
  | none =>
      rw [rs] at found
      exact n.riIdentity _ found

theorem router_of_rs {rs : Router} (is : n.rs = some rs) : n.router = rs := by
  apply Option.some.inj
  rw [router, Option.some_get, is]
  rfl

end Node

/-! ## Listing -/

/-- An item is for an address, whatever its action; `private` stands for the private networks, and a wildcard for every
address. -/
def Covers (p : PolicyItem) (addr : TorAddr) : Prop :=
  if p.isPrivate then ∃ net ∈ privateNetworks, ∃ b ∈ net.addr, SameNet net.maskbits.toNat addr b
  else ∀ b ∈ p.addr, SameNet p.maskbits.toNat addr b

def ItemLists (p : PolicyItem) (addr : TorAddr) (port : UInt16) : Prop :=
  p.policyType = .reject ∧ Covers p addr ∧ (p.prtMin ≤ port ∧ port ≤ p.prtMax ∨ p.prtMin ≤ 1 ∧ 65535 ≤ p.prtMax)

section Lists
variable (geo : Geoip) (list : List Text)

def NicknameListed (nickname : Text) : Prop :=
  ∃ e ∈ list, readEntry e = .nickname e ∧ strcasecmp e nickname = true

def IdentityListed (identity : Digest) : Prop := ∃ e ∈ list, readEntry e = .digest identity

def AddressListed (addr : TorAddr) (port : UInt16) : Prop :=
  ∃ e ∈ list, ∃ p, readEntry e = .address p ∧ ItemLists p addr port

def CountryListed (country : Int) : Prop :=
  geo.ipv4Entries.isSome ∧ 0 ≤ country ∧ ∃ e ∈ list, ∃ name, readEntry e = .country name ∧
    geoipGetCountry geo name = country

def Named (n : Node) : Prop :=
  NicknameListed list n.nickname ∨ IdentityListed list n.identity ∨ CountryListed geo list (n.countryOf geo)

end Lists

/-! ## Membership -/

section Members
variable {geo : Geoip} {set : Routerset} {list : List Text} {n : Node} {nickname : Text} {id : Digest} {country : Int}
  {addr addr2 : Option (Option TorAddr × UInt16)}

theorem exists_mem_append {α : Type} {p : α → Prop} {front back : List α} :
    (∃ x ∈ front ++ back, p x) ↔ (∃ x ∈ front, p x) ∨ ∃ x ∈ back, p x := by
  simp only [List.mem_append, or_and_right, exists_or]

/-- The country that `routerset_contains2` takes. -/
def countryAt (geo : Geoip) (addr : Option (Option TorAddr × UInt16)) (country : Int) : Int :=
  if country < 0 then (addr.map (geoipGetCountryByAddr geo ·.1)).getD country else country

theorem routersetContains2_ne_zero : routersetContains2 geo (some set) addr addr2 (some nickname) (some id) country ≠ 0 ↔
    nickname.map Char.toLower ∈ set.names ∨ id ∈ set.digests ∨
      (∃ a ∈ addr.toList ++ addr2.toList, Struck a.1 a.2 set.policies) ∨
      ∃ bits ∈ set.countries, 0 ≤ countryAt geo addr country ∧ countryAt geo addr country < bits.length ∧
        bits.getD (countryAt geo addr country).toNat false = true := by
  have struck (a : Option (Option TorAddr × UInt16)) :
      (a.any fun a => decide (compareTorAddrToItems a.1 a.2 set.policies = .rejected)) = true ↔
        ∃ b ∈ a.toList, Struck b.1 b.2 set.policies := by
    cases a <;> simp [compareTorAddrToItems_rejected]
  rw [routersetContains2, exists_mem_append, ← struck, ← struck]
  by_cases named : nickname.map Char.toLower ∈ set.names
  · simp [named]
  by_cases known : id ∈ set.digests
  · simp [named, known]
  simp only [Option.any_some, decide_eq_true_eq, named, known, if_false, false_or]
  cases first : addr.any fun a => decide (compareTorAddrToItems a.1 a.2 set.policies = .rejected) with
  | true => simp
  | false =>
      cases second : addr2.any fun a => decide (compareTorAddrToItems a.1 a.2 set.policies = .rejected) with
      | true => simp
      | false => cases set.countries <;> simp [countryAt]

theorem routersetContainsNode_ne_zero : routersetContainsNode geo (some set) n ≠ 0 ↔
    n.nickname.map Char.toLower ∈ set.names ∨ n.identity ∈ set.digests ∨
      (∃ a ∈ n.asked, Struck a.1 a.2 set.policies) ∨
      ∃ bits ∈ set.countries, 0 ≤ n.countryOf geo ∧ n.countryOf geo < bits.length ∧
        bits.getD (n.countryOf geo).toNat false = true := by
  have identity := n.router_identity
  rw [Node.nickname, Node.asked, Node.countryOf, ← identity]
  cases rs : n.rs with
  | some rs' =>
      rw [routersetContainsNode, rs, n.router_of_rs rs]
      exact routersetContains2_ne_zero
  | none =>
      cases ri : n.ri with
      | some ri' =>
          have is : n.router = ri' := by
            apply Option.some.inj
            rw [Node.router, Option.some_get, rs, ri]
            rfl
          rw [routersetContainsNode, rs, ri, is]
          exact routersetContains2_ne_zero
      | none =>
          have known := n.known
          rw [rs, ri] at known
          simp at known

theorem nickname_of_readEntry {nick name : Text} (read : readEntry nick = .nickname name) : name = nick := by
  rw [readEntry] at read
  split at read
  · cases read
  · split at read
    · exact (Entry.nickname.inj read).symm
    · split at read
      · cases read
      · split at read
        · split at read <;> cases read
        · cases read

theorem mem_names : nickname.map Char.toLower ∈ collect Entry.names list ↔ NicknameListed list nickname := by
  rw [mem_collect]
  refine exists_congr fun e => and_congr_right fun _ => ?_
  rw [strcasecmp, decide_eq_true_eq]
  cases read : readEntry e with
  | nickname name =>
      obtain rfl := nickname_of_readEntry read
      simp [Entry.names, eq_comm]
  | _ => simp [Entry.names]

theorem mem_digests : id ∈ collect Entry.digests list ↔ IdentityListed list id := by
  rw [mem_collect]
  refine exists_congr fun e => and_congr_right fun _ => ?_
  cases readEntry e <;> simp [Entry.digests, eq_comm]

theorem countryListed_iff : (geo.ipv4Entries.isSome ∧ 0 ≤ country ∧
      ∃ name ∈ collect Entry.countryNames list, geoipGetCountry geo name = country) ↔ CountryListed geo list country := by
  refine and_congr_right fun _ => and_congr_right fun _ => ?_
  constructor
  · rintro ⟨name, mem, same⟩
    obtain ⟨e, mem, part⟩ := mem_collect.mp mem
    refine ⟨e, mem, name, ?_, same⟩
    cases read : readEntry e <;> rw [read] at part <;> simp [Entry.countryNames] at part ⊢
    exact part.symm
  · rintro ⟨e, mem, name, read, same⟩
    exact ⟨name, mem_collect.mpr ⟨e, mem, by rw [read]; exact List.mem_singleton_self name⟩, same⟩

theorem mem_ofEntries : routersetContainsNode geo (some (ofEntries geo list)) n ≠ 0 ↔
    Named geo list n ∨ ∃ a ∈ n.asked, Struck a.1 a.2 (ofEntries geo list).policies := by
  rw [routersetContainsNode_ne_zero, Named, ← countryListed_iff, ← countryBits_get, ← mem_names, ← mem_digests, or_assoc,
    or_assoc]
  exact or_congr_right (or_congr_right or_comm)

theorem named_append {front back : List Text} : Named geo (front ++ back) n ↔ Named geo front n ∨ Named geo back n := by
  have countries : CountryListed geo (front ++ back) (n.countryOf geo) ↔
      CountryListed geo front (n.countryOf geo) ∨ CountryListed geo back (n.countryOf geo) := by
    simp only [CountryListed, exists_mem_append, and_or_left]
  have identities : IdentityListed (front ++ back) n.identity ↔
      IdentityListed front n.identity ∨ IdentityListed back n.identity := exists_mem_append
  have nicknames : NicknameListed (front ++ back) n.nickname ↔
      NicknameListed front n.nickname ∨ NicknameListed back n.nickname := exists_mem_append
  rw [Named, Named, Named, countries, identities, nicknames, @or_or_or_comm (IdentityListed front n.identity),
    or_or_or_comm]

theorem mem_union {target source : Routerset} (built : Built geo target) (also : Built geo source) :
    routersetContainsNode geo (some (routersetUnion geo target source)) n ≠ 0 ↔
      Named geo target.list n ∨ Named geo source.list n ∨
        ∃ a ∈ n.asked, Struck a.1 a.2 target.policies ∨
          Struck a.1 a.2 source.policies ∧ ¬ Exempt a.1 a.2 target.policies := by
  rw [built.union_eq also, mem_ofEntries, named_append, ofEntries_policies_append, ← built.entries.1, ← also.entries.1,
    or_assoc]
  refine or_congr_right (or_congr_right (exists_congr fun a => and_congr_right fun _ => ?_))
  exact struck_append

theorem Built.mem (built : Built geo set) : routersetContainsNode geo (some set) n ≠ 0 ↔
    Named geo set.list n ∨ ∃ a ∈ n.asked, Struck a.1 a.2 set.policies := by
  have eq := built.entries.1
  rw [eq]
  exact mem_ofEntries

end Members
end TorJet.Routersets
