import Mathlib.Data.List.Count
import Mathlib.Data.List.Perm.Basic
import TorJet.Routersets.Members

/-!
# Looking members up

The node that an entry leads to when it is looked up, and what `routerset_get_all_nodes` returns for a set of names and
fingerprints.
-/

namespace TorJet.Routersets
open Base Encoding Policy
open Net hiding TorAddr
open Guardstate (isLegalNickname)

/-! ## Lists where each element comes once -/

section Once
variable {α β : Type}

def OnlyOne (p : β → Prop) (list : List β) : Prop :=
  ∃ before x after, list = before ++ x :: after ∧ p x ∧ ∀ y ∈ before ++ after, ¬ p y

theorem onlyOne_congr {p q : β → Prop} {list : List β}
    (same : ∀ x ∈ list, p x ↔ q x) : OnlyOne p list ↔ OnlyOne q list := by
  refine exists_congr fun before => exists_congr fun x => exists_congr fun after => and_congr_right fun parts => ?_
  have mem : x ∈ list := by simp [parts]
  have others (y : β) (inside : y ∈ before ++ after) : y ∈ list := by
    rw [parts]
    obtain left | right := List.mem_append.mp inside
    · exact List.mem_append_left _ left
    · exact List.mem_append_right _ (List.mem_cons_of_mem x right)
  rw [same x mem]
  refine and_congr_right fun _ => forall₂_congr fun y inside => ?_
  rw [same y (others y inside)]

theorem countP_eq_one {p : β → Bool} {list : List β} : list.countP p = 1 ↔ OnlyOne (p · = true) list := by
  constructor
  · intro once
    obtain ⟨x, mem, holds⟩ := List.countP_pos_iff.mp (show 0 < list.countP p by omega)
    obtain ⟨before, after, parts⟩ := List.append_of_mem mem
    refine ⟨before, x, after, parts, holds, fun y inside isAlso => ?_⟩
    have none : (before ++ after).countP p = 0 := by
      rw [parts, List.countP_append, List.countP_cons_of_pos holds] at once
      rw [List.countP_append]
      omega
    exact List.countP_eq_zero.mp none y inside isAlso
  · rintro ⟨before, x, after, rfl, holds, others⟩
    have none : (before ++ after).countP p = 0 := List.countP_eq_zero.mpr others
    rw [List.countP_append] at none
    rw [List.countP_append, List.countP_cons_of_pos holds]
    omega

theorem filterMap_perm_iff [DecidableEq α] {f : β → Option α} {list : List β} {wanted : List α} (distinct : wanted.Nodup)
    (inside : ∀ x ∈ list.filterMap f, x ∈ wanted) :
    (list.filterMap f).Perm wanted ↔ ∀ x ∈ wanted, OnlyOne (f · = some x) list := by
  have counts (x : α) : (list.filterMap f).count x = list.countP fun y => f y = some x := by
    induction list with
    | nil => rfl
    | cons y list ih =>
        have ih := ih fun x mem => inside x (by rw [List.filterMap_cons]; split <;> simp [mem])
        cases value : f y <;> simp [value, ih, List.count_cons, List.countP_cons]
  rw [List.perm_iff_count]
  constructor
  · intro same x mem
    have once := same x
    rw [counts, List.count_eq_one_of_mem distinct mem, countP_eq_one] at once
    exact (onlyOne_congr fun y _ => by rw [decide_eq_true_eq]).mp once
  · intro once x
    by_cases mem : x ∈ wanted
    · rw [counts, List.count_eq_one_of_mem distinct mem, countP_eq_one]
      exact (onlyOne_congr fun y _ => by rw [decide_eq_true_eq]).mpr (once x mem)
    · rw [List.count_eq_zero_of_not_mem mem, List.count_eq_zero_of_not_mem fun there => mem (inside x there)]

end Once

/-! ## Entries that lead to nodes -/

/-- A fingerprint of a node, with nothing or with `~` and a name behind it. -/
def IsFingerprintOf (e : Text) (n : Node) : Prop :=
  ∃ d nnChar name, hexDigestNicknameDecode e = some (d, nnChar, name) ∧ nnChar ≠ some '=' ∧ n.identity = d

def FirstNamed (nodelist : Nodelist) (e : Text) (n : Node) : Prop :=
  ∃ before after, nodelist.nodes = before ++ n :: after ∧ strcasecmp n.nickname e = true ∧
    ∀ m ∈ before, strcasecmp m.nickname e = false

/-- An entry leads to a node that is listed: it is its fingerprint, or a nickname other than `Unnamed` that no node
before it has. -/
def LeadsTo (nodelist : Nodelist) (e : Text) (n : Node) : Prop :=
  n ∈ nodelist.nodes ∧ IsFingerprintOf e n ∨
    isLegalNickname e = true ∧ strcasecmp e unnamedRouterNickname = false ∧ FirstNamed nodelist e n

section Leads
variable {nodelist : Nodelist} {e name : Text} {n : Node} {list : List Text} {geo : Geoip} {set : Routerset}

theorem strcasecmp_length {a b : Text} (same : strcasecmp a b = true) : a.length = b.length := by
  have lengths := congrArg List.length (of_decide_eq_true same)
  rwa [List.length_map, List.length_map] at lengths

theorem strcasecmp_comm (a b : Text) : strcasecmp a b = strcasecmp b a := by
  rw [strcasecmp, strcasecmp]
  exact decide_eq_decide.mpr eq_comm

theorem isLegalNickname_length (legal : isLegalNickname e = true) : e.length ≤ 19 := by
  rw [isLegalNickname, Bool.and_eq_true, Bool.and_eq_true, decide_eq_true_eq, decide_eq_true_eq] at legal
  exact legal.1.2

theorem skipDollar_length (s : Text) : (skipDollar s).length ≤ s.length := by
  rw [skipDollar]
  split
  · rw [List.length_tail]
    omega
  · exact Nat.le_refl _

theorem isLegalHexdigest_length (legal : isLegalHexdigest e = true) : 40 ≤ e.length := by
  have shorter := skipDollar_length e
  rw [isLegalHexdigest] at legal
  split at legal
  · cases legal
  · rw [Bool.and_eq_true, decide_eq_true_eq, HEX_DIGEST_LEN] at legal
    omega

theorem decode_of_short (short : e.length < 40) : hexDigestNicknameDecode e = none := by
  have shorter := skipDollar_length e
  have less : (skipDollar e).length < HEX_DIGEST_LEN := by
    unfold HEX_DIGEST_LEN
    omega
  rw [hexDigestNicknameDecode]
  dsimp only
  rw [if_pos less]

theorem decode_digest {d : Digest} {nnChar : Option Char} (decoded : hexDigestNicknameDecode e = some (d, nnChar, name)) :
    d = (base16Digest (skipDollar e)).2 := by
  rw [hexDigestNicknameDecode] at decoded
  dsimp only at decoded
  split at decoded
  · cases decoded
  · split at decoded
    · cases decoded
    · exact (congrArg Prod.fst (Option.some.inj decoded)).symm

theorem nodeGetById_eq_some {d : Digest} : nodeGetById nodelist d = some n ↔ n ∈ nodelist.nodes ∧ n.identity = d := by
  constructor
  · intro found
    exact ⟨List.mem_of_find?_eq_some found,
      of_decide_eq_true (List.find?_some (p := fun node : Node => decide (node.identity = d)) found)⟩
  · rintro ⟨mem, rfl⟩
    cases found : nodeGetById nodelist n.identity with
    | none =>
        rw [nodeGetById, List.find?_eq_none] at found
        exact absurd (decide_eq_true rfl) (found n mem)
    | some m =>
        have same : m.identity = n.identity :=
          of_decide_eq_true (List.find?_some (p := fun node : Node => decide (node.identity = n.identity)) found)
        exact congrArg some (List.inj_on_of_nodup_map nodelist.distinct (List.mem_of_find?_eq_some found) mem same)

theorem nodeGetByHexId_eq_some : nodeGetByHexId nodelist e = some n ↔ n ∈ nodelist.nodes ∧ IsFingerprintOf e n := by
  rw [nodeGetByHexId, IsFingerprintOf]
  cases decoded : hexDigestNicknameDecode e with
  | none => simp
  | some value =>
      obtain ⟨d, nnChar, name⟩ := value
      dsimp only
      cases found : nodeGetById nodelist d with
      | none =>
          refine iff_of_false (fun absurd => by cases absurd) ?_
          rintro ⟨mem, d', nnChar', name', eq, -, same⟩
          obtain ⟨rfl, -⟩ := Prod.mk.inj (Option.some.inj eq)
          rw [nodeGetById_eq_some.mpr ⟨mem, same⟩] at found
          cases found
      | some m =>
          obtain ⟨inside, identity⟩ := nodeGetById_eq_some.mp found
          dsimp only
          constructor
          · intro given
            split at given
            · cases given
            · rename_i suffix
              obtain rfl := Option.some.inj given
              exact ⟨inside, d, nnChar, name, rfl, suffix, identity⟩
          · rintro ⟨mem, d', nnChar', name', eq, suffix, same⟩
            obtain ⟨rfl, rest⟩ := Prod.mk.inj (Option.some.inj eq)
            obtain ⟨rfl, -⟩ := Prod.mk.inj rest
            rw [nodeGetById_eq_some.mpr ⟨mem, same⟩] at found
            rw [if_neg suffix, found]

theorem filter_head_eq_some {p : Node → Bool} {nodes : List Node} : (nodes.filter p).head? = some n ↔
    ∃ before after, nodes = before ++ n :: after ∧ p n = true ∧ ∀ m ∈ before, p m = false := by
  rw [List.head?_filter, List.find?_eq_some_iff_append]
  constructor
  · rintro ⟨holds, before, after, parts, others⟩
    exact ⟨before, after, parts, holds, fun m mem => by simpa using others m mem⟩
  · rintro ⟨before, after, parts, holds, others⟩
    exact ⟨holds, before, after, parts, fun m mem => by simp [others m mem]⟩

theorem named_head_eq_some :
    (nodelist.nodes.filter fun node => (nodeGetNickname node).any (strcasecmp · e)).head? = some n ↔
    FirstNamed nodelist e n := by
  rw [filter_head_eq_some]
  simp only [Node.nodeGetNickname_eq, Option.any_some]
  rfl

theorem nodeGetByNickname_eq_some (entry : isLegalHexdigest e = true ∨ isLegalNickname e = true) :
    nodeGetByNickname nodelist e = some n ↔ LeadsTo nodelist e n := by
  rw [nodeGetByNickname, LeadsTo]
  obtain legal | legal := entry
  · have long := isLegalHexdigest_length legal
    have notName : ¬ isLegalNickname e = true := fun nick => by
      have short := isLegalNickname_length nick
      omega
    have none_ : (nodelist.nodes.filter fun node => (nodeGetNickname node).any (strcasecmp · e)).head? = none := by
      rw [List.head?_filter, List.find?_eq_none]
      intro m _ same
      rw [Node.nodeGetNickname_eq, Option.any_some] at same
      have short := isLegalNickname_length m.router.nickname.2
      have equal : m.router.nickname.1.length = e.length := strcasecmp_length same
      omega
    rw [← nodeGetByHexId_eq_some]
    cases nodeGetByHexId nodelist e with
    | none =>
        dsimp only
        rw [none_]
        simp [notName]
    | some m => simp [notName]
  · have short := isLegalNickname_length legal
    have none_ : nodeGetByHexId nodelist e = none := by
      rw [nodeGetByHexId, decode_of_short (by omega)]
    have notFingerprint : ¬ IsFingerprintOf e n := by
      rintro ⟨d, nnChar, name, eq, -⟩
      rw [decode_of_short (by omega)] at eq
      cases eq
    rw [none_]
    cases unnamed : strcasecmp e unnamedRouterNickname with
    | true => simp [notFingerprint]
    | false =>
        have found := @named_head_eq_some nodelist e n
        rw [List.head?_filter] at found
        simp [found, legal, notFingerprint]

/-! ## All nodes of a list -/

theorem readEntry_digest {d : Digest} (read : readEntry e = .digest d) :
    isLegalHexdigest e = true ∧ d = (base16Digest (skipDollar e)).2 := by
  rw [readEntry] at read
  split at read
  · rename_i legal
    exact ⟨legal, (Entry.digest.inj read).symm⟩
  · split at read
    · cases read
    · split at read
      · cases read
      · split at read
        · split at read <;> cases read
        · cases read

theorem readEntry_of_hexdigest (legal : isLegalHexdigest e = true) :
    readEntry e = .digest (base16Digest (skipDollar e)).2 := by
  rw [readEntry, if_pos legal]

theorem readEntry_of_nickname (legal : isLegalNickname e = true) : readEntry e = .nickname e := by
  have notHex : ¬ isLegalHexdigest e = true := fun hex => by
    have long := isLegalHexdigest_length hex
    have short := isLegalNickname_length legal
    omega
  rw [readEntry, if_neg notHex, if_pos legal]

theorem readEntry_nickname (read : readEntry e = .nickname name) : isLegalNickname e = true := by
  rw [readEntry] at read
  split at read
  · cases read
  · split at read
    · assumption
    · split at read
      · cases read
      · split at read
        · split at read <;> cases read
        · cases read

theorem entry_of_isList (built : Built geo set) (isList : routersetIsList set = true) (mem : e ∈ set.list) :
    isLegalHexdigest e = true ∨ isLegalNickname e = true := by
  obtain ⟨eq, all⟩ := built.entries
  have kept := (all e mem).kept
  rw [routersetIsList, Bool.and_eq_true, decide_eq_true_eq, decide_eq_true_eq, List.length_eq_zero_iff,
    List.length_eq_zero_iff, eq] at isList
  obtain ⟨countries, policies⟩ := isList
  cases read : readEntry e with
  | digest d => exact .inl (readEntry_digest read).1
  | nickname name => exact .inr (readEntry_nickname read)
  | country name =>
      have there : name ∈ collect Entry.countryNames set.list :=
        mem_collect.mpr ⟨e, mem, by rw [read]; exact List.mem_singleton_self name⟩
      rw [show collect Entry.countryNames set.list = [] from countries] at there
      cases there
  | address p =>
      have there : p ∈ collect Entry.items set.list :=
        mem_collect.mpr ⟨e, mem, by rw [read]; exact List.mem_singleton_self p⟩
      have expanded : policyExpandUnspec (collect Entry.items set.list) = [] := policies
      rw [policyExpandUnspec, List.flatMap_eq_nil_iff] at expanded
      have none_ := expanded p there
      rw [PolicyItem.expandUnspec] at none_
      split at none_ <;> cases none_
  | malformed =>
      rw [read] at kept
      cases kept
  | ignored =>
      rw [read] at kept
      cases kept

theorem named_of_leadsTo (entry : isLegalHexdigest e = true ∨ isLegalNickname e = true) (mem : e ∈ list)
    (leads : LeadsTo nodelist e n) : Named geo list n := by
  obtain ⟨-, d, nnChar, name, decoded, -, same⟩ | ⟨legal, -, before, after, -, same, -⟩ := leads
  · obtain legal | legal := entry
    · refine .inr (.inl ⟨e, mem, ?_⟩)
      rw [readEntry_of_hexdigest legal, same, decode_digest decoded]
    · have short := isLegalNickname_length legal
      rw [decode_of_short (by omega)] at decoded
      cases decoded
  · refine .inl ⟨e, mem, readEntry_of_nickname legal, ?_⟩
    rw [strcasecmp_comm]
    exact same

theorem mem_of_leadsTo (leads : LeadsTo nodelist e n) : n ∈ nodelist.nodes := by
  obtain ⟨mem, -⟩ | ⟨-, -, before, after, parts, -⟩ := leads
  · exact mem
  · rw [parts]
    simp

/-- The nodes that `routerset_get_all_nodes` is to return. -/
def wanted (geo : Geoip) (set : Routerset) (exclude : Option Routerset) (runningOnly : Bool) (n : Node) : Bool :=
  (!runningOnly || n.isRunning) && (routersetContainsNode geo (some set) n ≠ 0 && routersetContainsNode geo exclude n = 0)

theorem routersetGetAllNodes_pattern (isList : routersetIsList set = false) (exclude : Option Routerset)
    (runningOnly : Bool) :
    routersetGetAllNodes geo nodelist set exclude runningOnly =
      nodelist.nodes.filter (wanted geo set exclude runningOnly) := by
  rw [routersetGetAllNodes, isList, if_neg Bool.false_ne_true]
  refine List.filter_congr fun n _ => ?_
  rw [wanted, Bool.not_and, Bool.not_not]

theorem routersetGetAllNodes_list (built : Built geo set) (isList : routersetIsList set = true)
    (exclude : Option Routerset)
    (runningOnly : Bool) :
    (routersetGetAllNodes geo nodelist set exclude runningOnly).Perm
        (nodelist.nodes.filter (wanted geo set exclude runningOnly)) ↔
      ∀ n ∈ nodelist.nodes, wanted geo set exclude runningOnly n = true → OnlyOne (LeadsTo nodelist · n) set.list := by
  have distinct : (nodelist.nodes.filter (wanted geo set exclude runningOnly)).Nodup :=
    (List.Nodup.of_map _ nodelist.distinct).filter _
  -- what an entry of the set adds
  have value (e : Text) (mem : e ∈ set.list) (n : Node) :
      nodeOfName geo nodelist exclude runningOnly e = some n ↔
        LeadsTo nodelist e n ∧ wanted geo set exclude runningOnly n = true := by
    have entry := entry_of_isList built isList mem
    have leads (m : Node) : nodeGetByNickname nodelist e = some m ↔ LeadsTo nodelist e m :=
      nodeGetByNickname_eq_some entry
    have member (m : Node) (there : LeadsTo nodelist e m) : routersetContainsNode geo (some set) m ≠ 0 :=
      built.mem.mpr (.inl (named_of_leadsTo entry mem there))
    rw [nodeOfName]
    cases found : nodeGetByNickname nodelist e with
    | none =>
        refine iff_of_false (fun absurd => by cases absurd) ?_
        rintro ⟨there, -⟩
        rw [(leads n).mpr there] at found
        cases found
    | some m =>
        have there := (leads m).mp found
        have same : LeadsTo nodelist e n ↔ m = n := by
          rw [← leads n, found, Option.some.injEq]
        rw [same, wanted]
        constructor
        · intro given
          dsimp only at given
          split at given
          · rename_i runs
            split at given
            · rename_i free
              obtain rfl := Option.some.inj given
              simp [runs, free, member m there]
            · cases given
          · cases given
        · rintro ⟨rfl, holds⟩
          obtain ⟨runs, holds⟩ := Bool.and_eq_true_iff.mp holds
          obtain ⟨-, free⟩ := Bool.and_eq_true_iff.mp holds
          simp [runs, of_decide_eq_true free]
  rw [routersetGetAllNodes, isList, if_pos rfl, filterMap_perm_iff distinct]
  · constructor
    · intro all n mem isWanted
      refine (onlyOne_congr fun e inList => ?_).mp (all n (List.mem_filter.mpr ⟨mem, isWanted⟩))
      rw [value e inList n, and_iff_left isWanted]
    · intro all n mem
      obtain ⟨mem, isWanted⟩ := List.mem_filter.mp mem
      refine (onlyOne_congr fun e inList => ?_).mpr (all n mem isWanted)
      rw [value e inList n, and_iff_left isWanted]
  · intro n mem
    obtain ⟨e, inList, eq⟩ := List.mem_filterMap.mp mem
    obtain ⟨leads, isWanted⟩ := (value e inList n).mp eq
    exact List.mem_filter.mpr ⟨mem_of_leadsTo leads, isWanted⟩

end Leads
end TorJet.Routersets

/-!
## The same set by every route

Where the ways to ask for the members of a set agree: the list of its nodes, its union with another set, the set that is
parsed from its text, and what its entries list.
-/

namespace TorJet.Routersets
open Base Encoding Policy
open Net hiding TorAddr

/-! ## Struck and listed -/

section Struck
variable {geo : Geoip} {list : List Text} {nick : Text} {p : PolicyItem} {a : TorAddr} {port : UInt16}

theorem private_addr {tp : Policy.Keyword} {args : List Text} (read : routerParseAddrPolicy tp args = some p)
    (priv : p.isPrivate = true) : p.addr = none := by
  unfold routerParseAddrPolicy at read
  split at read
  · split at read
    · rw [routerParseAddrPolicyPrivate] at read
      split at read
      · obtain ⟨ports, -, rfl⟩ := Option.map_eq_some_iff.mp read
        rfl
      · cases read
    · obtain ⟨newe, -, rfl⟩ := Option.map_eq_some_iff.mp read
      cases priv
  · cases read

theorem readEntry_address (read : readEntry nick = .address p) :
    routerParseAddrPolicyItemFromString nick (some .reject) = .ok p := by
  rw [readEntry] at read
  split at read
  · cases read
  · split at read
    · cases read
    · split at read
      · cases read
      · split at read
        · split at read
          · rename_i parsed
            rw [parsed, Entry.address.inj read]
          · cases read
          · cases read
        · cases read

theorem address_private (read : readEntry nick = .address p) (priv : p.isPrivate = true) : p.addr = none := by
  have parsed := readEntry_address read
  rw [routerParseAddrPolicyItemFromString] at parsed
  dsimp only at parsed
  split at parsed
  · cases parsed
  · split at parsed
    · cases parsed
    · split at parsed
      · cases parsed
      · rename_i item
        split at parsed
        · cases parsed
        · obtain rfl := Except.ok.inj parsed
          exact private_addr item priv

theorem addressListed_of_struck (known : a.isNull = false) (struck : Struck (some a) port (ofEntries geo list).policies) :
    AddressListed list a port := by
  have asked : knownAddr (some a) = some a := by simp [knownAddr, known]
  rw [Struck, asked] at struck
  obtain ⟨before, e, after, parts, reject, isMay, sure, -⟩ := struck.resolve_left (fun both => by cases both.1)
  have mem : e ∈ consulted (some a) (ofEntries geo list).policies := by simp [parts]
  rw [consulted, asked] at mem
  obtain ⟨p, inPolicies, entry⟩ := List.mem_filterMap.mp mem
  rw [ofEntries_policies, policyExpandUnspec, List.mem_flatMap] at inPolicies
  obtain ⟨q, inItems, expanded⟩ := inPolicies
  obtain ⟨nick, inList, read⟩ := mem_collect.mp inItems
  have read : readEntry nick = .address q := by
    cases entry : readEntry nick <;> rw [entry] at read <;> simp [Entry.items] at read
    rw [read]
  obtain ⟨b, addr, rfl⟩ := Option.map_eq_some_iff.mp entry
  rw [mayMatch, asked] at isMay
  rw [surelyMatches, asked] at sure
  dsimp only at isMay sure
  have net : SameNet p.maskbits.toNat a b ∧ (p.prtMin ≤ port ∧ port ≤ p.prtMax ∨ p.prtMin ≤ 1 ∧ 65535 ≤ p.prtMax) := by
    by_cases zero : port = 0
    · rw [if_pos zero, decide_eq_true_eq, torAddrCompareMasked_eq_zero] at isMay
      rw [if_pos zero, Bool.and_eq_true, decide_eq_true_eq, decide_eq_true_eq] at sure
      exact ⟨isMay, .inr sure⟩
    · rw [if_neg zero, isAbout_iff] at isMay
      exact ⟨isMay.1, .inl isMay.2⟩
  refine ⟨nick, inList, q, read, ?_⟩
  rw [PolicyItem.expandUnspec] at expanded
  split at expanded
  · rename_i whole
    obtain rfl := List.mem_singleton.mp expanded
    have notPrivate : ¬ p.isPrivate = true := fun priv => by
      rw [address_private read priv] at addr
      cases addr
    refine ⟨reject, ?_, net.2⟩
    rw [Covers, if_neg notPrivate, addr]
    rintro c same
    obtain rfl := Option.some.inj same
    exact net.1
  · rename_i wild
    have wild : q.addr = none ∧ q.isPrivate = false := by simpa using wild
    have ports : p.policyType = q.policyType ∧ p.prtMin = q.prtMin ∧ p.prtMax = q.prtMax := by
      obtain rfl | mem := List.mem_cons.mp expanded
      · exact ⟨rfl, rfl, rfl⟩
      · obtain rfl := List.mem_singleton.mp mem
        exact ⟨rfl, rfl, rfl⟩
    obtain ⟨type, low, high⟩ := ports
    refine ⟨type ▸ reject, ?_, low ▸ high ▸ net.2⟩
    rw [Covers, wild.1, wild.2, if_neg Bool.false_ne_true]
    exact fun c absurd => by cases absurd

end Struck

/-! ## The property and its condition -/

section Routes
variable (geo : Geoip) (nodelist : Nodelist) (target source : Routerset) (exclude : Option Routerset) (runningOnly : Bool)

def AddressesListed (list : List Text) (n : Node) : Prop :=
  AddressListed list (.inet n.router.ipv4Addr) n.router.ipv4Orport ∨
    ∃ bytes ∈ n.router.ipv6Addr, AddressListed list (.inet6 bytes) n.router.ipv6Orport

structure SameByEveryRoute : Prop where
  enumerated : (routersetGetAllNodes geo nodelist target exclude runningOnly).Perm
    (nodelist.nodes.filter (wanted geo target exclude runningOnly))
  joined : ∀ n ∈ nodelist.nodes, routersetContainsNode geo (some (routersetUnion geo target source)) n ≠ 0 ↔
    routersetContainsNode geo (some target) n ≠ 0 ∨ routersetContainsNode geo (some source) n ≠ 0
  printed : ∀ n ∈ nodelist.nodes,
    routersetContainsNode geo (some (routersetParse geo routersetNew (routersetToString target)).1) n ≠ 0 ↔
      routersetContainsNode geo (some target) n ≠ 0
  listed : ∀ n ∈ nodelist.nodes, n.rs.isSome →
    (routersetContainsNode geo (some target) n ≠ 0 ↔ Named geo target.list n ∨ AddressesListed target.list n)

def IsFor (set : Routerset) (n : Node) : Prop := Named geo set.list n ∨ ∃ a ∈ n.asked, Struck a.1 a.2 set.policies

structure Agreeable : Prop where
  led : routersetIsList target = true → ∀ n ∈ nodelist.nodes, (runningOnly = true → n.isRunning = true) →
    IsFor geo target n → routersetContainsNode geo exclude n = 0 → OnlyOne (LeadsTo nodelist · n) target.list
  exempt : ∀ n ∈ nodelist.nodes, (∃ a ∈ n.asked, Struck a.1 a.2 source.policies) → ¬ IsFor geo target n →
    ¬ Named geo source.list n → ∃ a ∈ n.asked, Struck a.1 a.2 source.policies ∧ ¬ Exempt a.1 a.2 target.policies
  seen : ∀ n ∈ nodelist.nodes, n.rs.isSome → ¬ Named geo target.list n →
    (AddressesListed target.list n → Struck (some (.inet n.router.ipv4Addr)) n.router.ipv4Orport target.policies) ∧
    (n.router.ipv4Addr = 0 → Struck (some (.inet 0)) n.router.ipv4Orport target.policies → AddressesListed target.list n)

end Routes

section Parts
variable {geo : Geoip} {nodelist : Nodelist} {target source : Routerset} {exclude : Option Routerset} {runningOnly : Bool}
  {n : Node}

theorem contains_iff_isFor (built : Built geo target) : routersetContainsNode geo
    (some target) n ≠ 0 ↔ IsFor geo target n :=
  built.mem

theorem wanted_iff (built : Built geo target) : wanted geo target exclude runningOnly n = true ↔
    (runningOnly = true → n.isRunning = true) ∧ IsFor geo target n ∧ routersetContainsNode geo exclude n = 0 := by
  rw [wanted, Bool.and_eq_true, Bool.and_eq_true, decide_eq_true_eq, decide_eq_true_eq, contains_iff_isFor built]
  refine and_congr_left fun _ => ?_
  cases runningOnly <;> simp

theorem enumerated_iff (built : Built geo target) :
    (routersetGetAllNodes geo nodelist target exclude runningOnly).Perm
        (nodelist.nodes.filter (wanted geo target exclude runningOnly)) ↔
      (routersetIsList target = true → ∀ n ∈ nodelist.nodes, (runningOnly = true → n.isRunning = true) →
        IsFor geo target n → routersetContainsNode geo exclude n = 0 → OnlyOne (LeadsTo nodelist · n) target.list) := by
  cases isList : routersetIsList target with
  | false =>
      rw [routersetGetAllNodes_pattern isList]
      exact iff_of_true (.refl _) fun absurd => by cases absurd
  | true =>
      rw [routersetGetAllNodes_list built isList]
      have each (n : Node) :
        (wanted geo target exclude runningOnly n = true → OnlyOne (LeadsTo nodelist · n) target.list) ↔
          ((runningOnly = true → n.isRunning = true) → IsFor geo target n → routersetContainsNode geo exclude n = 0 →
            OnlyOne (LeadsTo nodelist · n) target.list) := by
        rw [wanted_iff built, and_imp, and_imp]
      exact ⟨fun all _ n mem => (each n).mp (all n mem), fun all n mem => (each n).mpr (all rfl n mem)⟩

theorem joined_iff (built : Built geo target) (also : Built geo source) :
    (routersetContainsNode geo (some (routersetUnion geo target source)) n ≠ 0 ↔
        routersetContainsNode geo (some target) n ≠ 0 ∨ routersetContainsNode geo (some source) n ≠ 0) ↔
      ((∃ a ∈ n.asked, Struck a.1 a.2 source.policies) → ¬ IsFor geo target n → ¬ Named geo source.list n →
        ∃ a ∈ n.asked, Struck a.1 a.2 source.policies ∧ ¬ Exempt a.1 a.2 target.policies) := by
  have parts : (∃ a ∈ n.asked, Struck a.1 a.2 target.policies ∨
        Struck a.1 a.2 source.policies ∧ ¬ Exempt a.1 a.2 target.policies) ↔
      (∃ a ∈ n.asked, Struck a.1 a.2 target.policies) ∨
        ∃ a ∈ n.asked, Struck a.1 a.2 source.policies ∧ ¬ Exempt a.1 a.2 target.policies := by
    simp only [and_or_left, exists_or]
  have sub : (∃ a ∈ n.asked, Struck a.1 a.2 source.policies ∧ ¬ Exempt a.1 a.2 target.policies) →
      ∃ a ∈ n.asked, Struck a.1 a.2 source.policies := fun ⟨a, mem, struck, _⟩ => ⟨a, mem, struck⟩
  rw [mem_union built also, contains_iff_isFor built, contains_iff_isFor also, parts, IsFor, IsFor]
  generalize (∃ a ∈ n.asked, Struck a.1 a.2 source.policies ∧ ¬ Exempt a.1 a.2 target.policies) = free at sub ⊢
  generalize (∃ a ∈ n.asked, Struck a.1 a.2 source.policies) = second at sub ⊢
  generalize (∃ a ∈ n.asked, Struck a.1 a.2 target.policies) = first
  generalize Named geo target.list n = named, Named geo source.list n = also
  constructor
  · rintro same isSecond notFor unnamed
    obtain isNamed | isAlso | isFirst | isFree := same.mpr (.inr (.inr isSecond))
    · exact absurd (.inl isNamed) notFor
    · exact absurd isAlso unnamed
    · exact absurd (.inr isFirst) notFor
    · exact isFree
  · refine fun freed => ⟨?_, ?_⟩
    · rintro (isNamed | isAlso | isFirst | isFree)
      · exact .inl (.inl isNamed)
      · exact .inr (.inl isAlso)
      · exact .inl (.inr isFirst)
      · exact .inr (.inr (sub isFree))
    · rintro ((isNamed | isFirst) | isAlso | isSecond)
      · exact .inl isNamed
      · exact .inr (.inr (.inl isFirst))
      · exact .inr (.inl isAlso)
      · by_cases isFor : named ∨ first
        · exact isFor.elim .inl fun isFirst => .inr (.inr (.inl isFirst))
        · by_cases isAlso : also
          · exact .inr (.inl isAlso)
          · exact .inr (.inr (.inr (freed isSecond isFor isAlso)))

theorem asked_of_rs (known : n.rs.isSome) : n.asked = [(some (.inet n.router.ipv4Addr), n.router.ipv4Orport)] :=
  if_pos known

theorem listed_iff (built : Built geo target) (known : n.rs.isSome) :
    (routersetContainsNode geo (some target) n ≠ 0 ↔ Named geo target.list n ∨ AddressesListed target.list n) ↔
      (¬ Named geo target.list n →
        (AddressesListed target.list n → Struck (some (.inet n.router.ipv4Addr)) n.router.ipv4Orport target.policies) ∧
        (n.router.ipv4Addr = 0 → Struck (some (.inet 0)) n.router.ipv4Orport target.policies →
          AddressesListed target.list n)) := by
  have one : (∃ a ∈ n.asked, Struck a.1 a.2 target.policies) ↔
      Struck (some (.inet n.router.ipv4Addr)) n.router.ipv4Orport target.policies := by
    simp [asked_of_rs known]
  have sound (address : n.router.ipv4Addr ≠ 0)
      (struck : Struck (some (.inet n.router.ipv4Addr)) n.router.ipv4Orport target.policies) :
      AddressesListed target.list n := by
    rw [built.entries.1] at struck
    exact .inl (addressListed_of_struck (decide_eq_false address) struck)
  rw [contains_iff_isFor built, IsFor, one]
  constructor
  · refine fun same unnamed => ⟨fun listed => (same.mpr (.inr listed)).resolve_left unnamed, fun null struck => ?_⟩
    rw [← null] at struck
    exact (same.mp (.inr struck)).resolve_left unnamed
  · refine fun seen => ⟨fun isFor => ?_, fun listed => ?_⟩
    · by_cases named : Named geo target.list n
      · exact .inl named
      · have struck := isFor.resolve_left named
        by_cases null : n.router.ipv4Addr = 0
        · exact .inr ((seen named).2 null (null ▸ struck))
        · exact .inr (sound null struck)
    · by_cases named : Named geo target.list n
      · exact .inl named
      · exact .inr ((seen named).1 (listed.resolve_left named))

/-- The routes agree where the sets, the nodes and the excluded nodes are as they have to be, and only there. -/
theorem sameByEveryRoute_iff (built : Built geo target) (also : Built geo source) (nodelist : Nodelist)
    (exclude : Option Routerset) (runningOnly : Bool) :
    SameByEveryRoute geo nodelist target source exclude runningOnly ↔
      Agreeable geo nodelist target source exclude runningOnly := by
  constructor
  · rintro ⟨enumerated, joined, -, listed⟩
    exact ⟨(enumerated_iff built).mp enumerated, fun n mem => (joined_iff built also).mp (joined n mem),
      fun n mem known => (listed_iff built known).mp (listed n mem known)⟩
  · rintro ⟨led, exempt, seen⟩
    refine ⟨(enumerated_iff built).mpr led, fun n mem => (joined_iff built also).mpr (exempt n mem), fun n mem => ?_,
      fun n mem known => (listed_iff built known).mpr (seen n mem known)⟩
    rw [built.reparsed]

def noGeoip : Geoip := ⟨[], none, none⟩

/-- A node of the consensus, with the IPv6 address `2001:db8::1`. -/
def alice : Node where
  identity := List.replicate 20 1
  rs := some ⟨⟨"Alice".toList, by decide⟩, List.replicate 20 1, 0x01020304, 9001,
    some ⟨[0x20, 0x01, 0x0d, 0xb8, 0, 0, 0, 0, 0, 0, 0, 0, 0, 0, 0, 1], rfl⟩, 9001⟩
  ri := none
  country := -1
  isRunning := true
  known := .inl rfl
  rsIdentity := by rintro _ ⟨⟩; rfl
  riIdentity := by rintro _ ⟨⟩

def onlyAlice : Nodelist := ⟨[alice], by simp⟩

def setOf (s : Text) : Routerset := (routersetParse noGeoip routersetNew s).1

theorem named_alice : Named noGeoip (setOf "Alice".toList).list alice :=
  .inl ⟨"Alice".toList, by decide, by decide, by decide⟩

theorem sameByEveryRoute_nickname :
    SameByEveryRoute noGeoip onlyAlice (setOf "Alice".toList) routersetNew none true := by
  refine (sameByEveryRoute_iff (.parse .new _) .new onlyAlice none true).mpr ⟨?_, ?_, ?_⟩
  · rintro - n mem - - -
    obtain rfl := List.mem_singleton.mp mem
    refine ⟨[], "Alice".toList, [], rfl, .inr ⟨rfl, rfl, [], [], rfl, rfl, ?_⟩, ?_⟩ <;> simp
  · rintro n mem - notFor
    obtain rfl := List.mem_singleton.mp mem
    exact absurd (.inl named_alice) notFor
  · rintro n mem - notNamed
    obtain rfl := List.mem_singleton.mp mem
    exact absurd named_alice notNamed

/-- The IPv6 address of a node of the consensus is not looked at. -/
theorem ipv6_not_seen : ¬ SameByEveryRoute noGeoip onlyAlice (setOf "[2001:db8::1]".toList) routersetNew none true := by
  rintro ⟨-, -, -, listed⟩
  have found : routersetContainsNode noGeoip (some (setOf "[2001:db8::1]".toList)) alice ≠ 0 := by
    refine (listed alice (List.mem_singleton.mpr rfl) rfl).mpr (.inr (.inr ⟨_, rfl, ?_⟩))
    refine ⟨"[2001:db8::1]".toList, by decide, ⟨.reject, false, some (.inet6 _), 128, 1, 65535⟩, rfl, rfl, ?_,
      .inl ⟨by decide, by decide⟩⟩
    rintro b ⟨⟩
    exact torAddrCompareMasked_eq_zero.mp (by decide)
  exact found (by decide)

end Parts
end TorJet.Routersets
