import Mathlib.Data.List.Sort
import TorJet.Protover.Codec
import TorJet.Protover.RoundTrip

/-!
# Voting on protocol lists

The authorities' consensus on protocols: what enough of the votes list.
-/

namespace TorJet.Protover
open Base Net

abbrev ProtoName := {name : Text // nameOk name = true}

def ProtoEntry.named (entry : ProtoEntry) : ProtoName := ⟨entry.name, entry.valid⟩

/-- The loop that accumulates `proto_names`. -/
def addNames (names : List ProtoName) (unexpanded : List ProtoEntry) : List ProtoName :=
  unexpanded.foldl (fun names ent => if ent.named ∈ names then names else names ++ [ent.named]) names

def protoNames (parsed : List (List ProtoEntry)) : List ProtoName := parsed.foldl addNames []

/-- `smartlist_sort_strings`; no name is there twice. -/
def sortNames (names : List ProtoName) : List ProtoName := names.insertionSort fun a b => strcmp a.val b.val ≤ 0

def firstCovers (vote : List ProtoEntry) (name : Text) (i : Nat) : Bool :=
  match findEntryByName vote name with
  | some ent => ent.bitmask &&& bit i ≠ 0
  | none => false

/-- `counts[i]`, a `uint8_t`. -/
def counts (parsed : List (List ProtoEntry)) (name : Text) (i : Nat) : Nat :=
  parsed.foldl (fun n vote => if firstCovers vote name i then (n + 1) % 2 ^ 8 else n) 0

def resultBitmask (parsed : List (List ProtoEntry)) (threshold : Int) (name : Text) : BitVec 64 :=
  (List.range 64).foldl (fun mask i => if threshold ≤ counts parsed name i then mask ||| bit i else mask) 0

def resultEntries (parsed : List (List ProtoEntry)) (threshold : Int) (names : List ProtoName) : List ProtoEntry :=
  names.filterMap fun name =>
    let bitmask := resultBitmask parsed threshold name.val
    if bitmask ≠ 0 then some ⟨name.val, bitmask, name.property⟩ else none

/-- `protover_compute_vote`; nothing when it asserts or does something undefined. -/
def protoverComputeVote (votes : List Text) (threshold : Int) : Option Text :=
  if 256 ≤ votes.length then none
  else if votes = [] then some []
  else
    let parsed := votes.filterMap parseProtocolList
    encodeProtocolList (resultEntries parsed threshold (sortNames (protoNames parsed)))

/-! ## The names -/

section Names
variable {parsed votes : List (List ProtoEntry)} {names : List ProtoName} {name : ProtoName}

theorem mem_addNames {entries : List ProtoEntry} :
    name ∈ addNames names entries ↔ name ∈ names ∨ ∃ ent ∈ entries, ent.named = name := by
  induction entries generalizing names with
  | nil => simp [addNames]
  | cons ent entries ih =>
      have step : name ∈ (if ent.named ∈ names then names else names ++ [ent.named]) ↔ name ∈ names ∨ ent.named = name := by
        split
        · rename_i known
          constructor
          · exact .inl
          · rintro (mem | rfl)
            · exact mem
            · exact known
        · rw [List.mem_append, List.mem_singleton, eq_comm]
      change name ∈ addNames (if ent.named ∈ names then names else names ++ [ent.named]) entries ↔ _
      rw [ih, step]
      simp [or_assoc]

theorem addNames_nodup (nodup : names.Nodup) (entries : List ProtoEntry) : (addNames names entries).Nodup := by
  induction entries generalizing names with
  | nil => exact nodup
  | cons ent entries ih =>
      change (addNames (if ent.named ∈ names then names else names ++ [ent.named]) entries).Nodup
      apply ih
      split
      · exact nodup
      · rename_i fresh
        exact nodup.append (List.nodup_singleton _) (List.disjoint_singleton.mpr fresh)

theorem mem_foldl_addNames : name ∈ parsed.foldl addNames names ↔
    name ∈ names ∨ ∃ vote ∈ parsed, ∃ ent ∈ vote, ent.named = name := by
  induction parsed generalizing names with
  | nil => simp
  | cons vote parsed ih =>
      rw [List.foldl_cons, ih, mem_addNames]
      simp [or_assoc]

theorem mem_protoNames : name ∈ protoNames parsed ↔ ∃ vote ∈ parsed, ∃ ent ∈ vote, ent.named = name := by
  rw [protoNames, mem_foldl_addNames]
  simp

theorem protoNames_nodup (parsed : List (List ProtoEntry)) : (protoNames parsed).Nodup := by
  have fold (names : List ProtoName) (nodup : names.Nodup) : (parsed.foldl addNames names).Nodup := by
    induction parsed generalizing names with
    | nil => exact nodup
    | cons vote parsed ih => exact ih _ (addNames_nodup nodup vote)
  exact fold [] List.nodup_nil

theorem sortNames_perm (names : List ProtoName) : (sortNames names).Perm names := List.perm_insertionSort _ _

theorem sortNames_sorted (names : List ProtoName) :
    (sortNames names).Pairwise fun a b => strcmp a.val b.val ≤ 0 := by
  have total : Std.Total fun a b : ProtoName => strcmp a.val b.val ≤ 0 :=
    ⟨fun a b => by have := strcmp_swap a.val b.val; omega⟩
  have trans : IsTrans ProtoName fun a b => strcmp a.val b.val ≤ 0 := ⟨fun _ _ _ => strcmp_trans⟩
  exact List.pairwise_insertionSort _ _

theorem sortNames_congr {other : List ProtoName} (perm : names.Perm other) : sortNames names = sortNames other := by
  refine List.Perm.eq_of_pairwise ?_ (sortNames_sorted names) (sortNames_sorted other)
    ((sortNames_perm names).trans (perm.trans (sortNames_perm other).symm))
  intro a b _ _ le ge
  rw [strcmp_swap] at ge
  exact Subtype.ext (strcmp_eq_zero.mp (by omega))

theorem protoNames_perm (perm : votes.Perm parsed) : (protoNames votes).Perm (protoNames parsed) := by
  apply (List.perm_ext_iff_of_nodup (protoNames_nodup votes) (protoNames_nodup parsed)).mpr
  intro name
  rw [mem_protoNames, mem_protoNames]
  constructor
  · rintro ⟨vote, mem, covers⟩
    exact ⟨vote, perm.mem_iff.mp mem, covers⟩
  · rintro ⟨vote, mem, covers⟩
    exact ⟨vote, perm.mem_iff.mpr mem, covers⟩

end Names

/-! ## The counts -/

section Counts
variable {parsed : List (List ProtoEntry)} {name : Text} {i v : Nat} {threshold : Int}

theorem firstCovers_iff {vote : List ProtoEntry} (small : i < 64) : firstCovers vote name i = true ↔
    ∃ ent, findEntryByName vote name = some ent ∧ ent.bitmask.getLsbD i = true := by
  rw [firstCovers]
  cases findEntryByName vote name with
  | none => simp
  | some ent =>
      dsimp only
      rw [decide_eq_true_eq, bit, Bits.and_shifted_one_ne_zero small]
      simp

theorem counts_eq (few : parsed.length < 256) (name : Text) (i : Nat) :
    counts parsed name i = parsed.countP fun vote => firstCovers vote name i := by
  have fold (rest : List (List ProtoEntry)) (n : Nat) (fits : n + rest.length < 256) :
      rest.foldl (fun n vote => if firstCovers vote name i then (n + 1) % 2 ^ 8 else n) n =
        n + rest.countP fun vote => firstCovers vote name i := by
    induction rest generalizing n with
    | nil => rfl
    | cons vote rest ih =>
        rw [List.length_cons] at fits
        rw [List.foldl_cons, List.countP_cons]
        split
        · rw [Nat.mod_eq_of_lt (by omega), ih _ (by omega)]
          omega
        · exact ih _ (by omega)
  rw [counts, fold parsed 0 (by omega), Nat.zero_add]

theorem getLsbD_resultBitmask (small : v < 64) :
    (resultBitmask parsed threshold name).getLsbD v = decide (threshold ≤ counts parsed name v) := by
  have fold (places : List Nat) (inside : ∀ i ∈ places, i < 64) (mask : BitVec 64) :
      (places.foldl (fun mask i => if threshold ≤ counts parsed name i then mask ||| bit i else mask) mask).getLsbD v =
        (mask.getLsbD v || (decide (v ∈ places) && decide (threshold ≤ counts parsed name v))) := by
    induction places generalizing mask with
    | nil => simp
    | cons i places ih =>
        rw [List.foldl_cons, ih fun j mem => inside j (List.mem_cons_of_mem _ mem)]
        have here := inside i List.mem_cons_self
        split
        · rename_i enough
          rw [BitVec.getLsbD_or, bit, Bits.getLsbD_shifted_one here]
          by_cases same : v = i
          · subst same
            simp [enough]
          · simp [same]
        · rename_i short
          by_cases same : v = i
          · subst same
            simp [short]
          · simp [same]
  rw [resultBitmask, fold _ (fun i => List.mem_range.mp) 0]
  simp [small]

end Counts

/-! ## The result -/

def Lists (vote : List ProtoEntry) (name : Text) (v : Nat) : Prop :=
  ∃ ent ∈ vote, ent.name = name ∧ ent.bitmask.getLsbD v = true

instance (vote : List ProtoEntry) (name : Text) (v : Nat) : Decidable (Lists vote name v) :=
  List.decidableBEx _ _

def votesFor (votes : List Text) (name : Text) (v : Nat) : Nat :=
  (votes.filterMap parseProtocolList).countP fun vote => Lists vote name v

def firstVotesFor (votes : List Text) (name : Text) (v : Nat) : Nat :=
  (votes.filterMap parseProtocolList).countP fun vote => firstCovers vote name v

/-- The output encodes what at least `threshold` votes list, and it does not depend on the order of the votes. -/
def CountsEveryVote (votes : List Text) (threshold : Int) : Prop :=
  (∃ out l, protoverComputeVote votes threshold = some out ∧ parseProtocolList out = some l ∧
    ∀ name v, Lists l name v ↔ threshold ≤ votesFor votes name v) ∧
  ∀ votes' : List Text, votes'.Perm votes → protoverComputeVote votes' threshold = protoverComputeVote votes threshold

section Result
variable {votes : List Text} {threshold : Int} {name : Text} {v : Nat}

theorem firstCovers_lists {vote : List ProtoEntry} (small : v < 64) (covers : firstCovers vote name v = true) :
    Lists vote name v := by
  obtain ⟨ent, found, set⟩ := (firstCovers_iff small).mp covers
  obtain ⟨mem, named⟩ := findEntryByName_spec found
  exact ⟨ent, mem, named, set⟩

theorem Lists.small {vote : List ProtoEntry} (lists : Lists vote name v) : v < 64 := by
  obtain ⟨ent, -, -, set⟩ := lists
  by_contra large
  rw [BitVec.getLsbD_of_ge _ _ (by omega)] at set
  cases set

theorem firstVotesFor_le (small : v < 64) : firstVotesFor votes name v ≤ votesFor votes name v := by
  apply List.countP_mono_left
  intro vote _ covers
  exact decide_eq_true (firstCovers_lists small covers)

def outcome (votes : List Text) (threshold : Int) : List ProtoEntry :=
  resultEntries (votes.filterMap parseProtocolList) threshold (sortNames (protoNames (votes.filterMap parseProtocolList)))

theorem compute_eq (few : votes.length < 256) :
    protoverComputeVote votes threshold = encodeProtocolList (outcome votes threshold) := by
  rw [protoverComputeVote, if_neg (by omega)]
  split
  · rename_i none
    subst none
    rfl
  · rfl

theorem lists_outcome (few : votes.length < 256) (some : 1 ≤ threshold) :
    Lists (outcome votes threshold) name v ↔ v < 64 ∧ threshold ≤ firstVotesFor votes name v := by
  have fewer : (votes.filterMap parseProtocolList).length < 256 := (List.length_filterMap_le _ _).trans_lt few
  constructor
  · intro lists
    have small := lists.small
    obtain ⟨ent, mem, named, set⟩ := lists
    obtain ⟨known, -, made⟩ := List.mem_filterMap.mp mem
    dsimp only at made
    split at made
    · obtain rfl := Option.some.inj made
      dsimp only at named set
      subst named
      rw [getLsbD_resultBitmask small, counts_eq fewer, decide_eq_true_eq] at set
      exact ⟨small, set⟩
    · cases made
  · rintro ⟨small, enough⟩
    have voted : 0 < firstVotesFor votes name v := by omega
    obtain ⟨vote, there, covers⟩ := List.countP_pos_iff.mp voted
    obtain ⟨ent, found, -⟩ := (firstCovers_iff small).mp covers
    obtain ⟨mem, named⟩ := findEntryByName_spec found
    have set : (resultBitmask (votes.filterMap parseProtocolList) threshold ent.named.val).getLsbD v = true := by
      rw [getLsbD_resultBitmask small, counts_eq fewer, decide_eq_true_eq]
      change threshold ≤ _ at enough
      rw [firstVotesFor, ← named] at enough
      exact enough
    have nonzero : resultBitmask (votes.filterMap parseProtocolList) threshold ent.named.val ≠ 0 := by
      intro zero
      rw [zero] at set
      simp at set
    refine ⟨⟨ent.named.val, _, ent.valid⟩, List.mem_filterMap.mpr ⟨ent.named, ?_, if_pos nonzero⟩, named, set⟩
    rw [(sortNames_perm _).mem_iff, mem_protoNames]
    exact ⟨vote, there, ent, mem, rfl⟩

theorem outcome_clear_iff (few : votes.length < 256) (some : 1 ≤ threshold) :
    (∀ entry ∈ outcome votes threshold, entry.bitmask ≠ BitVec.allOnes 64) ↔
      ∀ name, ∃ v < 64, (firstVotesFor votes name v : Int) < threshold := by
  have fewer : (votes.filterMap parseProtocolList).length < 256 := (List.length_filterMap_le _ _).trans_lt few
  constructor
  · intro clear name
    by_contra all
    push Not at all
    obtain ⟨ent, mem, named, -⟩ := (lists_outcome few some).mpr ⟨(by decide : 0 < 64), all 0 (by decide)⟩
    obtain ⟨known, -, made⟩ := List.mem_filterMap.mp mem
    dsimp only at made
    split at made
    · obtain rfl := Option.some.inj made
      apply clear _ mem
      apply BitVec.eq_of_getLsbD_eq
      intro v small
      dsimp only at named ⊢
      rw [getLsbD_resultBitmask small, counts_eq fewer, BitVec.getLsbD_allOnes, decide_eq_true small, named]
      exact decide_eq_true (all v small)
    · cases made
  · intro short entry mem full
    obtain ⟨v, small, less⟩ := short entry.name
    have lists : Lists (outcome votes threshold) entry.name v :=
      ⟨entry, mem, rfl, by rw [full, BitVec.getLsbD_allOnes, decide_eq_true small]⟩
    have := ((lists_outcome few some).mp lists).2
    omega

theorem compute_perm {votes' : List Text} (few : votes.length < 256) (perm : votes'.Perm votes) :
    protoverComputeVote votes' threshold = protoverComputeVote votes threshold := by
  have few' : votes'.length < 256 := by rwa [perm.length_eq]
  have parsed := perm.filterMap parseProtocolList
  rw [compute_eq few, compute_eq few', outcome, outcome, sortNames_congr (protoNames_perm parsed), resultEntries,
    resultEntries]
  have masks (name : Text) : resultBitmask (votes'.filterMap parseProtocolList) threshold name =
      resultBitmask (votes.filterMap parseProtocolList) threshold name := by
    apply BitVec.eq_of_getLsbD_eq
    intro v small
    rw [getLsbD_resultBitmask small, getLsbD_resultBitmask small,
      counts_eq ((List.length_filterMap_le _ _).trans_lt few'), counts_eq ((List.length_filterMap_le _ _).trans_lt few),
      parsed.countP_eq]
  simp only [masks]

def FirstEntriesSuffice (votes : List Text) (threshold : Int) : Prop :=
  ∀ name v, threshold ≤ votesFor votes name v → threshold ≤ firstVotesFor votes name v

def NoneComplete (votes : List Text) (threshold : Int) : Prop :=
  ∀ name, ∃ v < 64, (votesFor votes name v : Int) < threshold

theorem lists_iff (few : votes.length < 256) (some : 1 ≤ threshold) (suffice : FirstEntriesSuffice votes threshold)
    (name : Text) (v : Nat) : Lists (outcome votes threshold) name v ↔ threshold ≤ votesFor votes name v := by
  rw [lists_outcome few some]
  constructor
  · rintro ⟨small, enough⟩
    exact enough.trans (by exact_mod_cast firstVotesFor_le small)
  · intro enough
    refine ⟨?_, suffice name v enough⟩
    have voted : 0 < votesFor votes name v := by omega
    obtain ⟨vote, -, lists⟩ := List.countP_pos_iff.mp voted
    exact (of_decide_eq_true lists).small

theorem firstEntriesSuffice_of_nodup
    (nodup : ∀ vote ∈ votes.filterMap parseProtocolList, (vote.map ProtoEntry.name).Nodup) :
    FirstEntriesSuffice votes threshold := by
  intro name v enough
  have same : votesFor votes name v ≤ firstVotesFor votes name v := by
    apply List.countP_mono_left
    intro vote mem listed
    have lists : Lists vote name v := of_decide_eq_true listed
    refine (firstCovers_iff lists.small).mpr ?_
    obtain ⟨ent, here, named, set⟩ := lists
    cases found : findEntryByName vote name with
    | none =>
        have absent := List.find?_eq_none.mp found ent here
        rw [decide_eq_true_eq, strcmp_eq_zero] at absent
        exact absurd named absent
    | some first =>
        obtain ⟨there, firstNamed⟩ := findEntryByName_spec found
        obtain rfl := List.inj_on_of_nodup_map (nodup vote mem) there here (firstNamed.trans named.symm)
        exact ⟨first, rfl, set⟩
  exact enough.trans (by exact_mod_cast same)

theorem noneComplete_of_unlisted (some : 1 ≤ threshold) (small : v < 64)
    (unlisted : ∀ vote ∈ votes.filterMap parseProtocolList, ∀ ent ∈ vote, ent.bitmask.getLsbD v = false) :
    NoneComplete votes threshold := by
  intro name
  refine ⟨v, small, ?_⟩
  have zero : votesFor votes name v = 0 := by
    rw [votesFor, List.countP_eq_zero]
    intro vote mem listed
    obtain ⟨ent, here, -, set⟩ := of_decide_eq_true listed
    rw [unlisted vote mem ent here] at set
    cases set
  omega

/-- Every vote counts exactly where first entries suffice and no protocol is complete. -/
theorem compute_vote_counts_iff (votes : List Text) (threshold : Int) (few : votes.length < 256) (some : 1 ≤ threshold) :
    CountsEveryVote votes threshold ↔ FirstEntriesSuffice votes threshold ∧ NoneComplete votes threshold := by
  constructor
  · rintro ⟨⟨out, l, computes, parses, counted⟩, -⟩
    rw [compute_eq few] at computes
    have clear := encodeEntries_clear computes
    obtain ⟨s, encodes, back⟩ := roundTrips_of_clear clear
    obtain rfl := Option.some.inj (computes.symm.trans encodes)
    obtain rfl := Option.some.inj (parses.symm.trans back)
    have suffice : FirstEntriesSuffice votes threshold := by
      intro name v enough
      exact ((lists_outcome few some).mp ((counted name v).mpr enough)).2
    refine ⟨suffice, fun name => ?_⟩
    obtain ⟨v, small, short⟩ := (outcome_clear_iff few some).mp clear name
    refine ⟨v, small, ?_⟩
    by_contra enough
    have := suffice name v (not_lt.mp enough)
    omega
  · rintro ⟨suffice, incomplete⟩
    have clear : ∀ entry ∈ outcome votes threshold, entry.bitmask ≠ BitVec.allOnes 64 := by
      refine (outcome_clear_iff few some).mpr fun name => ?_
      obtain ⟨v, small, short⟩ := incomplete name
      have le : firstVotesFor votes name v ≤ votesFor votes name v := firstVotesFor_le small
      exact ⟨v, small, by omega⟩
    obtain ⟨out, encodes, parses⟩ := roundTrips_of_clear clear
    refine ⟨⟨out, _, (compute_eq few).trans encodes, parses, lists_iff few some suffice⟩, fun votes' perm => ?_⟩
    exact compute_perm few perm

theorem two_votes_count :
    CountsEveryVote ["Foo=1-10,63 Bar=1,3-8".toList, "Quux=12-45 Bar=2-6,8 Foo=9".toList] 2 :=
  (compute_vote_counts_iff _ 2 (by decide) (by decide)).mpr
    ⟨firstEntriesSuffice_of_nodup (by decide), noneComplete_of_unlisted (v := 0) (by decide) (by decide) (by decide)⟩

/-- The vote's second entry for the name is not counted. -/
theorem repeated_name_not_counted :
    ¬ ∀ (votes : List Text) (threshold : Int), votes.length < 256 → 1 ≤ threshold → CountsEveryVote votes threshold := by
  intro counted
  obtain ⟨⟨out, l, computes, parses, counts⟩, -⟩ := counted ["Link=1 Link=2".toList] 1 (by decide) (by decide)
  have known : protoverComputeVote ["Link=1 Link=2".toList] 1 = some "Link=1".toList := by decide
  obtain rfl := Option.some.inj (known.symm.trans computes)
  have back : parseProtocolList "Link=1".toList = some [⟨"Link".toList, bit 1, by decide⟩] := by decide
  obtain rfl := Option.some.inj (back.symm.trans parses)
  have lists := (counts "Link".toList 2).mpr (by decide)
  exact absurd lists (by decide)

end Result
end TorJet.Protover
