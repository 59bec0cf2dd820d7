import Mathlib.Tactic.Tauto
import TorJet.Guardstate.Line
import TorJet.Policy.Item
import TorJet.Smartlist.Core
import TorJet.Smartlist.Search

/-!
# Sets of routers

The sets that `ExcludeNodes` and options like it hold: how they are parsed, joined and printed, which nodes they
contain, and how their nodes are listed.
-/

namespace TorJet.Routersets
open Base Encoding Policy Smartlist
open Net hiding TorAddr
open Guardstate (isLegalNickname)
open Smartlist.Search (smartlistBsearch)

abbrev Digest := List UInt8

/-! ## Countries -/

/-- `geoip_ipv4_entry_t` and `geoip_ipv6_entry_t` -/
structure GeoipEntry (α : Type) where
  ipLow : α
  ipHigh : α
  country : Nat

/-- The GeoIP database. The number of a country is the place of its code, in lower case; `none` is a table that is not
loaded. -/
structure Geoip where
  countries : List Text
  ipv4Entries : Option (List (GeoipEntry UInt32))
  ipv6Entries : Option (List (GeoipEntry (List UInt8)))

/-- `geoip_ipv4_compare_key_to_entry_` and `geoip_ipv6_compare_key_to_entry_` -/
def compareKeyToEntry {α : Type} (compare : α → α → Int) (addr : α) (entry : GeoipEntry α) : Int :=
  if compare addr entry.ipLow < 0 then -1
  else if 0 < compare addr entry.ipHigh then 1
  else 0

/-- `geoip_get_country_by_ipv4` and `geoip_get_country_by_ipv6` -/
def geoipGetCountryBy {α : Type} (compare : α → α → Int) (entries : Option (List (GeoipEntry α))) (addr : α) : Int :=
  match entries with
  | none => -1
  | some entries => ((smartlistBsearch entries addr (compareKeyToEntry compare)).map GeoipEntry.country).getD 0

def geoipGetCountryByAddr (geo : Geoip) : Option TorAddr → Int
  | some (.inet a) => geoipGetCountryBy (fun a b : UInt32 => tristate a.toNat b.toNat) geo.ipv4Entries a
  | some (.inet6 bytes) => geoipGetCountryBy torMemcmp geo.ipv6Entries bytes.1
  | none => -1

def geoipGetCountry (geo : Geoip) (country : Text) : Int :=
  match geo.countries.idxOf? (country.map Char.toLower) with
  | some idx => idx
  | none => -1

/-! ## Entries -/

def HEX_DIGEST_LEN : Nat := 40

def DIGEST_LEN : Nat := 20

def MAX_NICKNAME_LEN : Nat := 19

def skipDollar (s : Text) : Text := if s.head? = some '$' then s.tail else s

def isLegalHexdigest (s : Text) : Bool :=
  let s := skipDollar s
  if HEX_DIGEST_LEN < s.length ∧
      ¬ ((s[HEX_DIGEST_LEN]? = some '=' ∨ s[HEX_DIGEST_LEN]? = some '~') ∧ isLegalNickname (s.drop (HEX_DIGEST_LEN + 1)))
    then false
  else HEX_DIGEST_LEN ≤ s.length && (s.takeWhile torIsxdigit).length = HEX_DIGEST_LEN

/-- `base16_decode` of `HEX_DIGEST_LEN` characters: what it returns, and the digest. -/
def base16Digest (hex : Text) : Int × Digest :=
  let bytes := (hex.take HEX_DIGEST_LEN).map fun c => UInt8.ofNat c.toNat
  match Binascii.base16Decode (List.replicate DIGEST_LEN 0) bytes with
  | .ok decoded => decoded
  | .error _ => (-1, List.replicate DIGEST_LEN 0)

def routersetGetCountryname (text : Text) : Option Text :=
  if text.length < 4 ∨ text[0]? ≠ some '{' ∨ text[3]? ≠ some '}' then none
  else some (((text.drop 1).take 2).map Char.toLower)

/-- What `routerset_parse` makes of an entry. -/
inductive Entry
  | digest (d : Digest)
  | nickname (name : Text)
  | country (name : Text)
  | address (p : PolicyItem)
  | malformed
  | ignored
  deriving DecidableEq

def readEntry (nick : Text) : Entry :=
  if isLegalHexdigest nick then .digest (base16Digest (skipDollar nick)).2
  else if isLegalNickname nick then .nickname nick
  else
    match routersetGetCountryname nick with
    | some countryname => .country countryname
    | none =>
        if '.' ∈ nick ∨ ':' ∈ nick ∨ '*' ∈ nick then
          match routerParseAddrPolicyItemFromString nick (some .reject) with
          | .ok p => .address p
          | .error .malformed => .malformed
          | .error .ignored => .ignored
        else .malformed

/-! ## Sets -/

/-- `routerset_t`; the names are in lower case, and a bit of `countries` is for the country of its place. -/
structure Routerset where
  list : List Text
  names : List Text
  digests : List Digest
  policies : List PolicyItem
  countryNames : List Text
  countries : Option (List Bool)
  deriving DecidableEq

def routersetNew : Routerset := ⟨[], [], [], [], [], none⟩

/-- The loop of `routerset_refresh_countries`. -/
def setCountry (geo : Geoip) (countries : List Bool) (country : Text) : List Bool :=
  let cc := geoipGetCountry geo country
  if 0 ≤ cc then countries.set cc.toNat true else countries

def routersetRefreshCountries (geo : Geoip) (target : Routerset) : Routerset :=
  { target with
    countries :=
      if geo.ipv4Entries.isNone then none
      else some (target.countryNames.foldl (setCountry geo) (List.replicate geo.countries.length false)) }

def Routerset.add (target : Routerset) : Entry → Routerset
  | .digest d => { target with digests := target.digests ++ [d] }
  | .nickname name => { target with names := target.names ++ [name.map Char.toLower] }
  | .country name => { target with countryNames := target.countryNames ++ [name] }
  | .address p => { target with policies := target.policies ++ [p] }
  | .malformed | .ignored => target

/-- Where the loop of `routerset_parse` is; `kept` are the entries that stay in the list. -/
structure Parsing where
  target : Routerset
  kept : List Text
  r : Int
  addedCountries : Bool

/-- The loop of `routerset_parse`. An entry that is deleted makes room for the last one. -/
def parseEntries : Nat → List Text → Parsing → Parsing
  | 0, _, p => p
  | _ + 1, [], p => p
  | fuel + 1, nick :: rest, p =>
      match readEntry nick with
      | .malformed => parseEntries fuel (del (nick :: rest) 0) { p with r := -1 }
      | .ignored => parseEntries fuel (del (nick :: rest) 0) p
      | .country name =>
          parseEntries fuel rest ⟨p.target.add (.country name), p.kept ++ [nick], p.r, true⟩
      | entry => parseEntries fuel rest ⟨p.target.add entry, p.kept ++ [nick], p.r, p.addedCountries⟩

def routersetParse (geo : Geoip) (target : Routerset) (s : Text) : Routerset × Int :=
  let list := smartlistSplitString ',' s
  let p := parseEntries list.length list ⟨target, [], 0, false⟩
  let target := { p.target with policies := policyExpandUnspec p.target.policies, list := p.target.list ++ p.kept }
  (if p.addedCountries then routersetRefreshCountries geo target else target, p.r)

def routersetToString (set : Routerset) : Text := [','].intercalate set.list

def routersetUnion (geo : Geoip) (target source : Routerset) : Routerset :=
  (routersetParse geo target (routersetToString source)).1

def routersetIsList (set : Routerset) : Bool := set.countryNames.length = 0 && set.policies.length = 0

/-- `routerset_contains2`; a pointer to an address that may be missing comes with its port. -/
def routersetContains2 (geo : Geoip) (set : Option Routerset) (addr addr2 : Option (Option TorAddr × UInt16))
    (nickname : Option Text) (idDigest : Option Digest) (country : Int) : Nat :=
  match set with
  | none => 0
  | some set =>
      if nickname.any fun nickname => nickname.map Char.toLower ∈ set.names then 4
      else if idDigest.any fun idDigest => idDigest ∈ set.digests then 4
      else if addr.any fun addr => compareTorAddrToItems addr.1 addr.2 set.policies = .rejected then 3
      else if addr2.any fun addr2 => compareTorAddrToItems addr2.1 addr2.2 set.policies = .rejected then 3
      else
        match set.countries with
        | none => 0
        | some countries =>
            let country := if country < 0 then (addr.map (geoipGetCountryByAddr geo ·.1)).getD country else country
            if 0 ≤ country ∧ country < countries.length ∧ countries.getD country.toNat false then 2 else 0

def routersetContains (geo : Geoip) (set : Option Routerset) (addr : Option (Option TorAddr × UInt16))
    (nickname : Option Text) (idDigest : Option Digest) (country : Int) : Nat :=
  routersetContains2 geo set addr none nickname idDigest country

/-! ## Nodes -/

/-- What `routerstatus_t` and `routerinfo_t` both say of a router; there need not be an IPv6 address. -/
structure Router where
  nickname : { t : Text // isLegalNickname t = true }
  identityDigest : Digest
  ipv4Addr : UInt32
  ipv4Orport : UInt16
  ipv6Addr : Option { bytes : List UInt8 // bytes.length = 16 }
  ipv6Orport : UInt16
  deriving DecidableEq

/-- `node_t`: a node is known by a consensus entry or by a descriptor, and these have its identity. -/
structure Node where
  identity : Digest
  rs : Option Router
  ri : Option Router
  country : Int
  isRunning : Bool
  known : rs.isSome ∨ ri.isSome
  rsIdentity : ∀ rs' ∈ rs, rs'.identityDigest = identity
  riIdentity : ∀ ri' ∈ ri, ri'.identityDigest = identity
  deriving DecidableEq

/-- The nodes of `the_nodelist`, in their order. The table by identity has the same nodes. -/
structure Nodelist where
  nodes : List Node
  distinct : (nodes.map Node.identity).Nodup

section Contains
variable (geo : Geoip) (set : Option Routerset)

def routersetContainsRouter (ri : Router) (country : Int) : Nat :=
  routersetContains2 geo set (some (some (.inet ri.ipv4Addr), ri.ipv4Orport))
    (some (ri.ipv6Addr.map .inet6, ri.ipv6Orport)) (some ri.nickname.1) (some ri.identityDigest) country

def routersetContainsRouterstatus (rs : Router) (country : Int) : Nat :=
  routersetContains geo set (some (some (.inet rs.ipv4Addr), rs.ipv4Orport)) (some rs.nickname.1)
    (some rs.identityDigest) country

def routersetContainsNode (node : Node) : Nat :=
  match node.rs, node.ri with
  | some rs, _ => routersetContainsRouterstatus geo set rs node.country
  | none, some ri => routersetContainsRouter geo set ri node.country
  | none, none => 0

end Contains

/-! ## Looking nodes up -/

def nodeGetNickname (node : Node) : Option Text := ((node.rs <|> node.ri)).map (·.nickname.1)

/-- `hex_digest_nickname_decode`: the digest, and the qualifier and the nickname behind it. -/
def hexDigestNicknameDecode (hexdigest : Text) : Option (Digest × Option Char × Text) :=
  let hexdigest := skipDollar hexdigest
  let len := hexdigest.length
  let behind : Option (Option Char × Text) :=
    if len < HEX_DIGEST_LEN then none
    else if HEX_DIGEST_LEN < len ∧ (hexdigest[HEX_DIGEST_LEN]? = some '=' ∨ hexdigest[HEX_DIGEST_LEN]? = some '~') ∧
        len ≤ HEX_DIGEST_LEN + 1 + MAX_NICKNAME_LEN then
      some (hexdigest[HEX_DIGEST_LEN]?, (hexdigest.drop (HEX_DIGEST_LEN + 1)).take MAX_NICKNAME_LEN)
    else if len = HEX_DIGEST_LEN then some (none, [])
    else none
  match behind with
  | none => none
  | some behind =>
      let (ret, digest) := base16Digest hexdigest
      if ret ≠ DIGEST_LEN then none else some (digest, behind)

def nodeGetById (nodelist : Nodelist) (identity : Digest) : Option Node :=
  nodelist.nodes.find? fun node => node.identity = identity

def nodeGetByHexId (nodelist : Nodelist) (hexId : Text) : Option Node :=
  match hexDigestNicknameDecode hexId with
  | none => none
  | some (digest, nnChar, _) =>
      match nodeGetById nodelist digest with
      | none => none
      | some node => if nnChar = some '=' then none else some node

def unnamedRouterNickname : Text := "Unnamed".toList

def nodeGetByNickname (nodelist : Nodelist) (nickname : Text) : Option Node :=
  match nodeGetByHexId nodelist nickname with
  | some node => some node
  | none =>
      if strcasecmp nickname unnamedRouterNickname then none
      else (nodelist.nodes.filter fun node => (nodeGetNickname node).any (strcasecmp · nickname)).head?

/-- What the first loop of `routerset_get_all_nodes` adds for a name. -/
def nodeOfName (geo : Geoip) (nodelist : Nodelist) (excludeset : Option Routerset) (runningOnly : Bool) (name : Text) :
    Option Node :=
  match nodeGetByNickname nodelist name with
  | none => none
  | some node =>
      if !runningOnly || node.isRunning then
        if routersetContainsNode geo excludeset node = 0 then some node else none
      else none

def routersetGetAllNodes (geo : Geoip) (nodelist : Nodelist) (routerset : Routerset) (excludeset : Option Routerset)
    (runningOnly : Bool) : List Node :=
  if routersetIsList routerset then routerset.list.filterMap (nodeOfName geo nodelist excludeset runningOnly)
  else
    nodelist.nodes.filter fun node =>
      !(runningOnly && !node.isRunning) &&
        (routersetContainsNode geo (some routerset) node ≠ 0 && routersetContainsNode geo excludeset node = 0)

end TorJet.Routersets

/-!
## What a set lists

A set that was parsed or joined is determined by its entries. With that the nodes it contains are those that an entry
names, and those that an item of its policy strikes.
-/

namespace TorJet.Routersets
open Base Encoding Policy Smartlist
open Net hiding TorAddr
open Guardstate (isLegalNickname)

/-! ## The parts of an entry -/

namespace Entry

def names : Entry → List Text
  | nickname name => [name.map Char.toLower]
  | _ => []

def digests : Entry → List Digest
  | digest d => [d]
  | _ => []

def items : Entry → List PolicyItem
  | address p => [p]
  | _ => []

def countryNames : Entry → List Text
  | country name => [name]
  | _ => []

def isKept : Entry → Bool
  | malformed | ignored => false
  | _ => true

end Entry

section Countries
variable {geo : Geoip} {bits : List Bool} {countryNames : List Text} {country : Int}

theorem geoipGetCountry_lt (geo : Geoip) (country : Text) : geoipGetCountry geo country < geo.countries.length := by
  rw [geoipGetCountry]
  split
  · rename_i idx found
    exact Int.ofNat_lt.mpr (List.idxOf?_eq_some_iff.mp found).1
  · omega

theorem setCountry_length (geo : Geoip) (bits : List Bool) (name : Text) :
    (setCountry geo bits name).length = bits.length := by
  rw [setCountry]
  split
  · exact List.length_set
  · rfl

theorem foldl_setCountry_length (geo : Geoip) (bits : List Bool) (countryNames : List Text) :
    (countryNames.foldl (setCountry geo) bits).length = bits.length := by
  induction countryNames generalizing bits with
  | nil => rfl
  | cons name countryNames ih => rw [List.foldl_cons, ih, setCountry_length]

theorem setCountry_get (size : bits.length = geo.countries.length) (i : Nat) (name : Text) :
    (setCountry geo bits name).getD i false = true ↔ bits.getD i false = true ∨ geoipGetCountry geo name = i := by
  have bound := geoipGetCountry_lt geo name
  rw [setCountry]
  split
  · rename_i known
    rw [List.getD_eq_getElem?_getD, List.getD_eq_getElem?_getD, List.getElem?_set]
    by_cases here : (geoipGetCountry geo name).toNat = i
    · have inside : (geoipGetCountry geo name).toNat < bits.length := by omega
      rw [if_pos here, if_pos inside]
      have same : geoipGetCountry geo name = i := by omega
      simp [same]
    · have other : geoipGetCountry geo name ≠ i := by omega
      simp [here, other]
  · have other : geoipGetCountry geo name ≠ i := by omega
    simp [other]

theorem foldl_setCountry_get (size : bits.length = geo.countries.length) (i : Nat) :
    (countryNames.foldl (setCountry geo) bits).getD i false = true ↔
      bits.getD i false = true ∨ ∃ name ∈ countryNames, geoipGetCountry geo name = i := by
  induction countryNames generalizing bits with
  | nil => simp
  | cons name countryNames ih =>
      rw [List.foldl_cons, ih ((setCountry_length geo bits name).trans size), setCountry_get size, or_assoc,
        List.exists_mem_cons_iff]

def countryBits (geo : Geoip) (countryNames : List Text) : Option (List Bool) :=
  if countryNames = [] ∨ geo.ipv4Entries = none then none
  else some (countryNames.foldl (setCountry geo) (List.replicate geo.countries.length false))

theorem countryBits_get : (∃ bits ∈ countryBits geo countryNames,
      0 ≤ country ∧ country < bits.length ∧ bits.getD country.toNat false = true) ↔
    geo.ipv4Entries.isSome ∧ 0 ≤ country ∧ ∃ name ∈ countryNames, geoipGetCountry geo name = country := by
  rw [countryBits]
  split
  · rename_i missing
    refine iff_of_false ?_ ?_
    · rintro ⟨bits, mem, -⟩
      cases mem
    · rintro ⟨loaded, -, name, mem, -⟩
      obtain rfl | none' := missing
      · cases mem
      · rw [none'] at loaded
        cases loaded
  · rename_i there
    obtain ⟨-, loaded⟩ := not_or.mp there
    have loaded := Option.isSome_iff_ne_none.mpr loaded
    have size : (List.replicate geo.countries.length false).length = geo.countries.length := List.length_replicate
    constructor
    · rintro ⟨bits, mem, known, -, isSet⟩
      obtain rfl := Option.some.inj mem
      rw [foldl_setCountry_get size] at isSet
      obtain isSet | ⟨name, mem, same⟩ := isSet
      · rw [List.getD_eq_getElem?_getD, List.getElem?_replicate] at isSet
        split at isSet <;> cases isSet
      · exact ⟨loaded, known, name, mem, same.trans (Int.toNat_of_nonneg known)⟩
    · rintro ⟨-, known, name, mem, same⟩
      refine ⟨_, rfl, known, ?_, ?_⟩
      · rw [foldl_setCountry_length, size, ← same]
        exact geoipGetCountry_lt geo name
      · rw [foldl_setCountry_get size]
        exact .inr ⟨name, mem, same.trans (Int.toNat_of_nonneg known).symm⟩

end Countries

/-! ## A set is determined by its entries -/

def collect {α : Type} (part : Entry → List α) (list : List Text) : List α := list.flatMap fun nick => part
    (readEntry nick)

def ofEntries (geo : Geoip) (list : List Text) : Routerset where
  list := list
  names := collect Entry.names list
  digests := collect Entry.digests list
  policies := policyExpandUnspec (collect Entry.items list)
  countryNames := collect Entry.countryNames list
  countries := countryBits geo (collect Entry.countryNames list)

structure IsEntry (nick : Text) : Prop where
  item : IsItem ',' nick
  kept : (readEntry nick).isKept = true

def Routerset.addAll (target : Routerset) (kept : List Text) : Routerset :=
  { target with
    names := target.names ++ collect Entry.names kept
    digests := target.digests ++ collect Entry.digests kept
    policies := target.policies ++ collect Entry.items kept
    countryNames := target.countryNames ++ collect Entry.countryNames kept }

section Parse
variable {geo : Geoip} {target : Routerset} {nick s : Text} {list kept front back : List Text}

@[simp] theorem collect_nil {α : Type} (part : Entry → List α) : collect part [] = [] := rfl

theorem collect_cons {α : Type} (part : Entry → List α) (nick : Text) (list : List Text) :
    collect part (nick :: list) = part (readEntry nick) ++ collect part list := rfl

theorem collect_append {α : Type} (part : Entry → List α) (front back : List Text) :
    collect part (front ++ back) = collect part front ++ collect part back := List.flatMap_append

theorem mem_collect {α : Type} {part : Entry → List α} {x : α} :
    x ∈ collect part list ↔ ∃ nick ∈ list, x ∈ part (readEntry nick) := List.mem_flatMap

theorem addAll_nil (target : Routerset) : target.addAll [] = target := by
  simp [Routerset.addAll]

theorem addAll_cons (target : Routerset) (nick : Text) (kept : List Text) :
    target.addAll (nick :: kept) = (target.add (readEntry nick)).addAll kept := by
  cases read : readEntry nick <;>
    simp [Routerset.addAll, Routerset.add, collect_cons, read, Entry.names, Entry.digests, Entry.items,
      Entry.countryNames]

theorem parseEntries_kept (kept : (readEntry nick).isKept = true) (fuel : Nat) (rest : List Text) (p : Parsing) :
    parseEntries (fuel + 1) (nick :: rest) p = parseEntries fuel rest
      ⟨p.target.add (readEntry nick), p.kept ++ [nick], p.r,
        p.addedCountries || !(readEntry nick).countryNames.isEmpty⟩ := by
  rw [parseEntries]
  cases read : readEntry nick <;> simp [read, Entry.isKept, Entry.countryNames] at kept ⊢

theorem parseEntries_dropped (dropped : (readEntry nick).isKept = false) (fuel : Nat) (rest : List Text) (p : Parsing) :
    ∃ r, parseEntries (fuel + 1) (nick :: rest) p = parseEntries fuel (del (nick :: rest) 0) { p with r := r } := by
  rw [parseEntries]
  cases read : readEntry nick <;> simp [read, Entry.isKept] at dropped ⊢
  · exact ⟨-1, rfl⟩
  · exact ⟨p.r, rfl⟩

theorem del_first_length (nick : Text) (rest : List Text) : (del (nick :: rest) 0).length = rest.length := by
  have perm := del_perm (show (nick :: rest)[0]? = some nick from rfl)
  exact Nat.succ_inj.mp perm.length_eq

theorem mem_of_del_first (mem : s ∈ del (nick :: list) 0) : s ∈ nick :: list :=
  (del_perm (show (nick :: list)[0]? = some nick from rfl)).subset (List.mem_cons_of_mem nick mem)

theorem parseEntries_eq (fuel : Nat) (rest : List Text) (enough : rest.length ≤ fuel) (p : Parsing) :
    ∃ kept r, (∀ e ∈ kept, e ∈ rest ∧ (readEntry e).isKept = true) ∧
      ((∀ e ∈ rest, (readEntry e).isKept = true) → kept = rest) ∧
      parseEntries fuel rest p = ⟨p.target.addAll kept, p.kept ++ kept, r,
        p.addedCountries || !(collect Entry.countryNames kept).isEmpty⟩ := by
  induction fuel generalizing rest p with
  | zero =>
      obtain rfl := List.length_eq_zero_iff.mp (Nat.le_zero.mp enough)
      refine ⟨[], p.r, fun e mem => absurd mem List.not_mem_nil, fun _ => rfl, ?_⟩
      rw [parseEntries, addAll_nil, List.append_nil]
      simp
  | succ fuel ih =>
      cases rest with
      | nil =>
          refine ⟨[], p.r, fun e mem => absurd mem List.not_mem_nil, fun _ => rfl, ?_⟩
          rw [parseEntries, addAll_nil, List.append_nil]
          simp
      | cons nick rest =>
          have room : rest.length ≤ fuel := Nat.le_of_succ_le_succ enough
          cases reads : (readEntry nick).isKept with
          | true =>
              rw [parseEntries_kept reads]
              obtain ⟨kept, r, inside, whole, eq⟩ := ih rest room _
              refine ⟨nick :: kept, r, List.forall_mem_cons.mpr ⟨⟨List.mem_cons_self, reads⟩, fun e mem => ?_⟩,
                fun all => ?_, ?_⟩
              · exact ⟨List.mem_cons_of_mem nick (inside e mem).1, (inside e mem).2⟩
              · rw [whole (List.forall_mem_cons.mp all).2]
              · rw [eq, addAll_cons, collect_cons]
                cases (readEntry nick).countryNames <;> simp
          | false =>
              obtain ⟨r, eq⟩ := parseEntries_dropped reads fuel rest p
              obtain ⟨kept, r', inside, -, eq'⟩ := ih _ ((del_first_length nick rest).trans_le room)
                { p with r := r }
              refine ⟨kept, r', fun e mem => ⟨mem_of_del_first (inside e mem).1, (inside e mem).2⟩, fun all => ?_,
                eq.trans eq'⟩
              rw [all nick List.mem_cons_self] at reads
              cases reads

theorem ofEntries_policies (list : List Text) :
    (ofEntries geo list).policies = policyExpandUnspec (collect Entry.items list) := rfl

theorem ofEntries_policies_append (front back : List Text) :
    (ofEntries geo (front ++ back)).policies = (ofEntries geo front).policies ++ (ofEntries geo back).policies := by
  rw [ofEntries_policies, collect_append, policyExpandUnspec_append]
  rfl

theorem parsed_eq (front kept : List Text) :
    (if !(collect Entry.countryNames kept).isEmpty then routersetRefreshCountries geo { (ofEntries geo front).addAll kept with
        policies := policyExpandUnspec ((ofEntries geo front).addAll kept).policies, list := front ++ kept }
      else { (ofEntries geo front).addAll kept with
        policies := policyExpandUnspec ((ofEntries geo front).addAll kept).policies, list := front ++ kept }) =
    ofEntries geo (front ++ kept) := by
  have policies : policyExpandUnspec ((ofEntries geo front).addAll kept).policies =
      (ofEntries geo (front ++ kept)).policies := by
    rw [ofEntries_policies_append, Routerset.addAll, policyExpandUnspec_append, ofEntries_policies,
      policyExpandUnspec_expanded]
    rfl
  rw [policies]
  cases added : collect Entry.countryNames kept with
  | nil => simp [Routerset.addAll, ofEntries, collect_append, added]
  | cons name names =>
      cases loaded : geo.ipv4Entries <;>
        simp [routersetRefreshCountries, Routerset.addAll, ofEntries, collect_append, added, countryBits, loaded]

theorem routersetParse_ofEntries (geo : Geoip) (front : List Text) (s : Text) : ∃ kept,
    (∀ e ∈ kept, e ∈ smartlistSplitString ',' s ∧ (readEntry e).isKept = true) ∧
    ((∀ e ∈ smartlistSplitString ',' s, (readEntry e).isKept = true) → kept = smartlistSplitString ',' s) ∧
    (routersetParse geo (ofEntries geo front) s).1 = ofEntries geo (front ++ kept) := by
  obtain ⟨kept, r, inside, whole, eq⟩ := parseEntries_eq (smartlistSplitString ',' s).length (smartlistSplitString ',' s)
    (Nat.le_refl _) ⟨ofEntries geo front, [], 0, false⟩
  refine ⟨kept, inside, whole, ?_⟩
  rw [routersetParse, eq, ← parsed_eq front kept]
  rfl

theorem routersetParse_entries (front : List Text) (all : ∀ e ∈ list, IsEntry e) :
    (routersetParse geo (ofEntries geo front) ([','].intercalate list)).1 = ofEntries geo (front ++ list) := by
  obtain ⟨kept, -, whole, eq⟩ := routersetParse_ofEntries geo front ([','].intercalate list)
  rw [smartlistSplitString_join fun e mem => (all e mem).item] at whole
  rw [eq, whole fun e mem => (all e mem).kept]

inductive Built (geo : Geoip) : Routerset → Prop
  | new : Built geo routersetNew
  | parse {target : Routerset} (built : Built geo target) (s : Text) : Built geo (routersetParse geo target s).1
  | union {target source : Routerset} (built : Built geo target) (also : Built geo source) :
      Built geo (routersetUnion geo target source)

theorem Built.entries (built : Built geo target) : target = ofEntries geo target.list ∧ ∀ e ∈ target.list, IsEntry e := by
  induction built with
  | new => exact ⟨by simp [ofEntries, routersetNew, collect, policyExpandUnspec, countryBits],
      fun e mem => absurd mem List.not_mem_nil⟩
  | @parse target _ s ih =>
      obtain ⟨eq, all⟩ := ih
      obtain ⟨kept, inside, -, eq'⟩ := routersetParse_ofEntries geo target.list s
      rw [← eq] at eq'
      rw [eq']
      refine ⟨rfl, List.forall_mem_append.mpr ⟨all, fun e mem => ?_⟩⟩
      exact ⟨isItem_of_mem (inside e mem).1, (inside e mem).2⟩
  | @union target source _ _ first second =>
      obtain ⟨eq, all⟩ := first
      rw [eq, routersetUnion, routersetToString, routersetParse_entries _ second.2]
      exact ⟨rfl, List.forall_mem_append.mpr ⟨all, second.2⟩⟩

theorem Built.reparsed (built : Built geo target) :
    (routersetParse geo routersetNew (routersetToString target)).1 = target := by
  have new : routersetNew = ofEntries geo [] := (Built.new : Built geo routersetNew).entries.1
  rw [new, routersetToString, routersetParse_entries _ built.entries.2, List.nil_append, ← built.entries.1]

theorem Built.union_eq {source : Routerset} (built : Built geo target) (also : Built geo source) :
    routersetUnion geo target source = ofEntries geo (target.list ++ source.list) := by
  have eq := built.entries.1
  rw [eq, routersetUnion, routersetToString, routersetParse_entries _ also.entries.2]
  rfl

end Parse
end TorJet.Routersets
