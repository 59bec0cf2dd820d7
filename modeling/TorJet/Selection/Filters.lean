import Mathlib.Algebra.Group.Nat.Defs
import Mathlib.Algebra.GroupWithZero.Nat
import Mathlib.Order.Fin.Basic
import TorJet.Base.Compare
import TorJet.Base.Least
import TorJet.Base.Text
import TorJet.Smartlist.Core

/-!
# Choosing a set for a stream

The linked sets of the client's pool, and which one of them a new stream is attached to.
-/

namespace TorJet.Selection
open Base Smartlist

abbrev CircId := Nat

abbrev SetId := Nat

abbrev StreamId := Nat

/-- `uint64_t` and `size_t` -/
abbrev Word := Fin (2 ^ 64)

instance word_ne_zero : NeZero (2 ^ 64) := inferInstance

def UINT64_MAX : Word := ⊤

/-- What is read of a leg's circuit; `conflux` is the set that it points to. -/
structure Circuit where
  id : CircId
  isOrigin : Bool
  isLinked : Bool
  conflux : Option SetId
  pStreams : List StreamId
  deriving DecidableEq, Repr

structure Leg where
  circ : Circuit
  circRttsUsec : Word
  deriving DecidableEq, Repr

/-- A `conflux_t` of the linked pool, which has a leg. -/
structure ConfluxSet where
  id : SetId
  first : Leg
  others : List Leg
  totalStreams : Word
  deriving DecidableEq, Repr

def ConfluxSet.legs (cfx : ConfluxSet) : List Leg := cfx.first :: cfx.others

structure Options where
  confluxSetSelection : Int
  confluxSetRttMax : Int
  confluxSetRttPct : Int
  deriving DecidableEq, Repr

def confluxParamsGetSetSelection (opts : Options) : Int :=
  if 0 ≤ opts.confluxSetSelection then opts.confluxSetSelection else 0

def confluxParamsGetSetRttMax (opts : Options) : Nat := if 0 < opts.confluxSetRttMax then opts.confluxSetRttMax.toNat else 0

def confluxParamsGetSetRttPct (opts : Options) : Nat := if 0 < opts.confluxSetRttPct then opts.confluxSetRttPct.toNat else 0

def CONFLUX_SET_SELECT_ROUND_ROBIN : Int := 1

def CONFLUX_SET_SELECT_LEAST_STREAMS : Int := 2

def CONFLUX_SET_SELECT_FASTEST : Int := 3

structure Candidate where
  ocirc : Circuit
  bestRttUsec : Word
  numStreams : Word
  totalStreams : Word
  deriving DecidableEq, Repr

def confluxSetBestRtt (cfx : ConfluxSet) : Word :=
  cfx.legs.foldl (fun best leg => if 0 < leg.circRttsUsec ∧ leg.circRttsUsec < best then leg.circRttsUsec else best)
    UINT64_MAX

def confluxCandRttAscCmp (a b : Candidate) : Int :=
  if a.bestRttUsec < b.bestRttUsec then -1 else if b.bestRttUsec < a.bestRttUsec then 1 else 0

def confluxSetStreamCount (cfx : ConfluxSet) : Word :=
  if cfx.first.circ.isOrigin then Fin.ofNat _ cfx.first.circ.pStreams.length else 0

/-- The SOCKS request of an `entry_connection_t`, if it has one with a user name. -/
structure Conn where
  socksUsername : Option Text
  deriving DecidableEq, Repr

def CONFLUX_KEEPALIVE_USERNAME : Text := "torjet-keepalive".toList

def confluxConnIsKeepalive (conn : Conn) : Bool := conn.socksUsername = some CONFLUX_KEEPALIVE_USERNAME

def confluxPickSetFromCandidates (opts : Options) (counter : Nat) (cands : List Candidate) (keepaliveBalance : Bool) :
    Option Candidate × Nat :=
  if cands = [] then (none, counter)
  else
    let policy := confluxParamsGetSetSelection opts
    if keepaliveBalance then (cands[leastIndex Candidate.totalStreams cands]?, counter)
    else if policy = CONFLUX_SET_SELECT_ROUND_ROBIN then (cands[counter % cands.length]?, (counter + 1) % 2 ^ 64)
    else if policy = CONFLUX_SET_SELECT_LEAST_STREAMS then (cands[leastIndex Candidate.numStreams cands]?, counter)
    else if policy = CONFLUX_SET_SELECT_FASTEST then (cands[leastIndex Candidate.bestRttUsec cands]?, counter)
    else (cands[0]?, counter)

/-- `circuit_is_acceptable` for the stream, of a circuit that may be asked about. -/
def usable (acceptable : Circuit → Bool) (circ : Circuit) : Bool := circ.isLinked && circ.isOrigin && acceptable circ

def candidate (cfx : ConfluxSet) : Candidate where
  ocirc := cfx.first.circ
  bestRttUsec := confluxSetBestRtt cfx
  numStreams := confluxSetStreamCount cfx
  totalStreams := cfx.totalStreams

def accepted (acceptable : Circuit → Bool) (pool : List ConfluxSet) : List ConfluxSet :=
  pool.filter fun cfx => usable acceptable cfx.first.circ

def candidates (acceptable : Circuit → Bool) (pool : List ConfluxSet) : List Candidate :=
  (accepted acceptable pool).map candidate

/-- The filter by `ConfluxSetRttMax`. -/
def rttMaxFilter (opts : Options) (keepalive : Bool) (cands : List Candidate) : List Candidate :=
  let rttMaxMs := confluxParamsGetSetRttMax opts
  if !keepalive ∧ 0 < rttMaxMs ∧ 1 < cands.length then delEach (fun c => rttMaxMs * 1000 ≤ c.bestRttUsec.val) cands else cands

/-- The filter by `ConfluxSetRttPct`. -/
def rttPctFilter (qsort : Qsort confluxCandRttAscCmp) (opts : Options) (keepalive : Bool) (cands : List Candidate) :
    List Candidate :=
  let rttPct := confluxParamsGetSetRttPct opts
  if !keepalive ∧ 0 < rttPct ∧ 1 < cands.length then
    let sorted := qsort.run cands
    let keep := cands.length * rttPct / 100
    sorted.take (if keep = 0 then 1 else keep)
  else cands

def kept (qsort : Qsort confluxCandRttAscCmp) (acceptable : Circuit → Bool) (opts : Options) (conn : Conn)
    (pool : List ConfluxSet) : List Candidate :=
  let keepalive := confluxConnIsKeepalive conn
  rttPctFilter qsort opts keepalive (rttMaxFilter opts keepalive (candidates acceptable pool))

def confluxGetCircForConn (qsort : Qsort confluxCandRttAscCmp) (acceptable : Circuit → Bool) (opts : Options)
    (counter : Nat) (conn : Conn) (pool : List ConfluxSet) : Option Circuit × Nat :=
  let (picked, counter) := confluxPickSetFromCandidates opts counter (kept qsort acceptable opts conn pool)
    (confluxConnIsKeepalive conn)
  (picked.map Candidate.ocirc, counter)

end TorJet.Selection

/-!
## What the filters leave

When a stream finds a set, and which set it is.
-/

namespace TorJet.Selection
open Base Smartlist

/-! ## The pick -/

section Pick
variable {opts : Options} {counter : Nat} {cands : List Candidate} {keepalive : Bool}

def policyKey (opts : Options) : Option (Candidate → Word) :=
  if confluxParamsGetSetSelection opts = CONFLUX_SET_SELECT_LEAST_STREAMS then some Candidate.numStreams
  else if confluxParamsGetSetSelection opts = CONFLUX_SET_SELECT_FASTEST then some Candidate.bestRttUsec
  else none

theorem getElem?_leastIndex (some : cands ≠ []) (key : Candidate → Word) :
    ∃ c ∈ cands, cands[leastIndex key cands]? = .some c ∧ ∀ d ∈ cands, key c ≤ key d := by
  obtain ⟨c, at_c⟩ := leastIndex_spec key some
  exact ⟨c, List.mem_of_getElem? at_c.here, at_c.here, at_c.least⟩

theorem pick_keepalive (opts : Options) (counter : Nat) (some : cands ≠ []) :
    ∃ c ∈ cands, (confluxPickSetFromCandidates opts counter cands true).1 = .some c ∧
      ∀ d ∈ cands, c.totalStreams ≤ d.totalStreams := by
  rw [confluxPickSetFromCandidates, if_neg some]
  exact getElem?_leastIndex some Candidate.totalStreams

theorem pick_policy (counter : Nat) (some : cands ≠ []) {key : Candidate → Word} (policy : policyKey opts = .some key) :
    ∃ c ∈ cands, (confluxPickSetFromCandidates opts counter cands false).1 = .some c ∧ ∀ d ∈ cands, key c ≤ key d := by
  rw [confluxPickSetFromCandidates, if_neg some]
  rw [policyKey] at policy
  dsimp only
  split at policy
  · rename_i least
    obtain rfl := Option.some.inj policy
    rw [least]
    exact getElem?_leastIndex some Candidate.numStreams
  · split at policy
    · rename_i fastest
      obtain rfl := Option.some.inj policy
      rw [fastest]
      exact getElem?_leastIndex some Candidate.bestRttUsec
    · cases policy

theorem pick_isSome : (confluxPickSetFromCandidates opts counter cands keepalive).1.isSome ↔ cands ≠ [] := by
  rw [confluxPickSetFromCandidates]
  split
  · rename_i none
    simp [none]
  · rename_i some
    have length := List.length_pos_iff.mpr some
    have at_least (key : Candidate → Word) : (cands[leastIndex key cands]?).isSome := by
      obtain ⟨c, -, here, -⟩ := getElem?_leastIndex some key
      rw [here]
      rfl
    rw [iff_true_right some]
    dsimp only
    split
    · exact at_least _
    · split
      · rw [List.getElem?_eq_getElem (Nat.mod_lt _ length)]
        rfl
      · split
        · exact at_least _
        · split
          · exact at_least _
          · rw [List.getElem?_eq_getElem length]
            rfl

end Pick

/-! ## The filters -/

section Filters
variable {qsort : Qsort confluxCandRttAscCmp} {acceptable : Circuit → Bool} {opts : Options} {keepalive : Bool}
  {conn : Conn} {pool : List ConfluxSet} {cands : List Candidate} {c : Candidate}

theorem cmp_orders (S : Candidate → Prop) : Orders S confluxCandRttAscCmp := by
  refine .of_key (fun c => (c.bestRttUsec.val : Int)) fun a b _ _ => ?_
  rw [confluxCandRttAscCmp]
  simp only [Fin.lt_def]
  split
  · omega
  · split <;> omega

theorem cmp_le {a b : Candidate} : confluxCandRttAscCmp a b ≤ 0 ↔ a.bestRttUsec ≤ b.bestRttUsec := by
  rw [confluxCandRttAscCmp]
  simp only [Fin.lt_def, Fin.le_def]
  split
  · omega
  · split <;> omega

def RttMaxApplies (opts : Options) (keepalive : Bool) (cands : List Candidate) : Prop :=
  keepalive = false ∧ 0 < confluxParamsGetSetRttMax opts ∧ 1 < cands.length

theorem mem_rttMaxFilter : c ∈ rttMaxFilter opts keepalive cands ↔
    c ∈ cands ∧ (RttMaxApplies opts keepalive cands → c.bestRttUsec.val < confluxParamsGetSetRttMax opts * 1000) := by
  have applies : RttMaxApplies opts keepalive cands ↔
      ((!keepalive) = true ∧ 0 < confluxParamsGetSetRttMax opts ∧ 1 < cands.length) := by
    rw [RttMaxApplies, Bool.not_eq_true']
  rw [rttMaxFilter, applies]
  split
  · rename_i yes
    rw [(delEach_perm _ _).mem_iff, List.mem_filter, Bool.not_eq_true', decide_eq_false_iff_not, Nat.not_le]
    simp [yes]
  · rename_i no
    exact ⟨fun mem => ⟨mem, fun yes => absurd yes no⟩, And.left⟩

def keepCount (opts : Options) (n : Nat) : Nat :=
  let keep := n * confluxParamsGetSetRttPct opts / 100
  if keep = 0 then 1 else keep

structure Fastest (left cands : List Candidate) (n : Nat) : Prop where
  length : left.length = n
  rest : ∃ dropped, cands.Perm (left ++ dropped) ∧ ∀ c ∈ left, ∀ d ∈ dropped, c.bestRttUsec ≤ d.bestRttUsec

theorem rttPctFilter_inactive (inactive : keepalive = true ∨ confluxParamsGetSetRttPct opts = 0) :
    rttPctFilter qsort opts keepalive cands = cands := by
  rw [rttPctFilter]
  dsimp only
  rw [if_neg]
  rintro ⟨off, some, -⟩
  rcases inactive with rfl | zero
  · cases off
  · omega

theorem rttPctFilter_fastest (some : cands ≠ []) (on : 0 < confluxParamsGetSetRttPct opts)
    (most : confluxParamsGetSetRttPct opts ≤ 100) :
    Fastest (rttPctFilter qsort opts false cands) cands (keepCount opts cands.length) := by
  have positive := List.length_pos_iff.mpr some
  have least : keepCount opts cands.length ≤ cands.length := by
    have bound : cands.length * confluxParamsGetSetRttPct opts ≤ cands.length * 100 := Nat.mul_le_mul_left _ most
    rw [keepCount]
    split <;> omega
  rw [rttPctFilter]
  dsimp only
  split
  · obtain ⟨perm, sorted⟩ := qsort.spec cands (cmp_orders _)
    change Fastest ((qsort.run cands).take (keepCount opts cands.length)) _ _
    have first := First.take (n := keepCount opts cands.length) perm sorted
    obtain ⟨dropped, split, before⟩ := first.rest
    refine ⟨?_, dropped, split, ?_⟩
    · rw [first.length]
      exact Nat.min_eq_left least
    · intro c inTake d inDropped
      exact cmp_le.mp (before c inTake d inDropped)
  · rename_i single
    have one : cands.length = 1 := by
      by_contra more
      exact single ⟨rfl, on, by omega⟩
    refine ⟨?_, [], by simp, by simp⟩
    have : 0 < keepCount opts cands.length := by
      rw [keepCount]
      split <;> omega
    omega

theorem rttPctFilter_ne_nil : rttPctFilter qsort opts keepalive cands ≠ [] ↔ cands ≠ [] := by
  rw [rttPctFilter]
  dsimp only
  split
  · rename_i applies
    obtain ⟨perm, -⟩ := qsort.spec cands (cmp_orders _)
    have length := perm.length_eq
    rw [← List.length_pos_iff, ← List.length_pos_iff, List.length_take, length]
    split <;> omega
  · rfl

end Filters

/-! ## Starved streams -/

section Starve
variable {qsort : Qsort confluxCandRttAscCmp} {acceptable : Circuit → Bool} {opts : Options} {counter : Nat}
  {conn : Conn} {pool : List ConfluxSet}

def HasCircuit (acceptable : Circuit → Bool) (pool : List ConfluxSet) : Prop :=
  ∃ cfx ∈ pool, ∃ leg ∈ cfx.legs, usable acceptable leg.circ = true

def Attachable (acceptable : Circuit → Bool) (opts : Options) (conn : Conn) (pool : List ConfluxSet) : Prop :=
  ∃ cfx ∈ accepted acceptable pool,
    confluxConnIsKeepalive conn = true ∨ confluxParamsGetSetRttMax opts = 0 ∨ (accepted acceptable pool).length = 1 ∨
      (confluxSetBestRtt cfx).val < confluxParamsGetSetRttMax opts * 1000

theorem kept_ne_nil (qsort : Qsort confluxCandRttAscCmp) : kept qsort acceptable opts conn pool ≠ [] ↔ Attachable acceptable opts conn pool := by
  rw [kept, rttPctFilter_ne_nil]
  have count : (candidates acceptable pool).length = (accepted acceptable pool).length := List.length_map _
  constructor
  · intro some
    obtain ⟨c, mem⟩ := List.exists_mem_of_ne_nil _ some
    obtain ⟨there, fast⟩ := mem_rttMaxFilter.mp mem
    obtain ⟨cfx, inPool, rfl⟩ := List.mem_map.mp there
    have positive := List.length_pos_of_mem inPool
    refine ⟨cfx, inPool, ?_⟩
    by_contra slow
    push Not at slow
    obtain ⟨ordinary, limited, more, tooSlow⟩ := slow
    have below := fast ⟨Bool.eq_false_iff.mpr ordinary, Nat.pos_of_ne_zero limited, by omega⟩
    exact absurd below (Nat.not_lt.mpr tooSlow)
  · rintro ⟨cfx, inPool, reason⟩
    refine List.ne_nil_of_mem (mem_rttMaxFilter.mpr ⟨List.mem_map_of_mem inPool, ?_⟩)
    rintro ⟨ordinary, limited, more⟩
    rcases reason with keepalive | unlimited | single | fast
    · rw [keepalive] at ordinary
      cases ordinary
    · omega
    · omega
    · exact fast

theorem get_isSome : (confluxGetCircForConn qsort acceptable opts counter conn pool).1.isSome ↔
    Attachable acceptable opts conn pool := by
  rw [← kept_ne_nil qsort]
  simp only [confluxGetCircForConn, Option.isSome_map]
  exact pick_isSome

/-- A stream finds a circuit whenever some set has one for it, exactly where some set is attachable. -/
theorem never_starved_iff (qsort : Qsort confluxCandRttAscCmp) (acceptable : Circuit → Bool) (opts : Options)
    (counter : Nat) (conn : Conn) (pool : List ConfluxSet) :
    (HasCircuit acceptable pool → (confluxGetCircForConn qsort acceptable opts counter conn pool).1.isSome) ↔
      ¬ HasCircuit acceptable pool ∨ Attachable acceptable opts conn pool := by
  rw [get_isSome, imp_iff_not_or]

def oneLeg (id : Nat) (rtt : Word) : ConfluxSet where
  id
  first := ⟨⟨id, true, true, some id, []⟩, rtt⟩
  others := []
  totalStreams := 0

/-- With every set over the largest RTT nothing is left to attach to. -/
theorem slow_sets_starve :
    ¬ ∀ (qsort : Qsort confluxCandRttAscCmp) (acceptable : Circuit → Bool) (opts : Options) (counter : Nat) (conn : Conn)
      (pool : List ConfluxSet), HasCircuit acceptable pool →
        (confluxGetCircForConn qsort acceptable opts counter conn pool).1.isSome := by
  intro always
  have found := always (.byInsertion _) (fun _ => true) ⟨1, 10, 0⟩ 0 ⟨none⟩ [oneLeg 1 50000, oneLeg 2 60000]
    ⟨oneLeg 1 50000, List.mem_cons_self, _, List.mem_cons_self, rfl⟩
  obtain ⟨cfx, mem, reason⟩ := get_isSome.mp found
  have slow : ∀ cfx ∈ [oneLeg 1 50000, oneLeg 2 60000], 10 * 1000 ≤ (confluxSetBestRtt cfx).val := by decide
  rcases reason with keepalive | unlimited | single | fast
  · exact absurd keepalive (by decide)
  · exact absurd unlimited (by decide)
  · exact absurd single (by decide)
  · exact absurd fast (Nat.not_lt.mpr (slow cfx (List.mem_of_mem_filter mem)))

end Starve

/-! ## The set that is returned -/

/-- Among the sets that are kept, the one returned has the least of the policy's key; the percentage keeps exactly
its part of the fastest sets; and a keep-alive stream gets the least used of all acceptable sets. -/
theorem selection_exact (qsort : Qsort confluxCandRttAscCmp) (acceptable : Circuit → Bool) (opts : Options)
    (least : 1 ≤ opts.confluxSetRttPct) (most : opts.confluxSetRttPct ≤ 100) (counter : Nat) (conn : Conn)
    (pool : List ConfluxSet) :
    (∀ cands : List Candidate, cands ≠ [] →
      Fastest (rttPctFilter qsort opts false cands) cands
        (max 1 (cands.length * opts.confluxSetRttPct.toNat / 100))) ∧
    (confluxConnIsKeepalive conn = false → ∀ key, policyKey opts = some key →
      kept qsort acceptable opts conn pool ≠ [] →
        ∃ c ∈ kept qsort acceptable opts conn pool,
          (confluxGetCircForConn qsort acceptable opts counter conn pool).1 = some c.ocirc ∧
            ∀ d ∈ kept qsort acceptable opts conn pool, key c ≤ key d) ∧
    (confluxConnIsKeepalive conn = true → accepted acceptable pool ≠ [] →
      ∃ cfx ∈ accepted acceptable pool,
        (confluxGetCircForConn qsort acceptable opts counter conn pool).1 = some cfx.first.circ ∧
          ∀ other ∈ accepted acceptable pool, cfx.totalStreams ≤ other.totalStreams) := by
  have pct : confluxParamsGetSetRttPct opts = opts.confluxSetRttPct.toNat := if_pos (by omega)
  refine ⟨fun cands some => ?_, fun ordinary key policy some => ?_, fun keepalive some => ?_⟩
  · have count : keepCount opts cands.length = max 1 (cands.length * opts.confluxSetRttPct.toNat / 100) := by
      rw [keepCount, pct]
      split <;> omega
    rw [← count]
    exact rttPctFilter_fastest some (by omega) (by omega)
  · obtain ⟨c, mem, picked, least⟩ := pick_policy counter some policy
    refine ⟨c, mem, ?_, least⟩
    simp only [confluxGetCircForConn, ordinary, picked]
    rfl
  · have all : kept qsort acceptable opts conn pool = candidates acceptable pool := by
      rw [kept, keepalive]
      rw [rttPctFilter_inactive (.inl rfl), rttMaxFilter, if_neg (by simp)]
    have here : candidates acceptable pool ≠ [] := by
      rw [candidates]
      exact mt List.map_eq_nil_iff.mp some
    obtain ⟨c, mem, picked, least⟩ := pick_keepalive opts counter here
    obtain ⟨cfx, inPool, rfl⟩ := List.mem_map.mp mem
    refine ⟨cfx, inPool, ?_, fun other there => least _ (List.mem_map_of_mem there)⟩
    simp only [confluxGetCircForConn, keepalive, all, picked]
    rfl

theorem fastest_of_three : Fastest
    (rttPctFilter (.byInsertion _) ⟨3, 0, 70⟩ false [candidate (oneLeg 1 300), candidate (oneLeg 2 100), candidate (oneLeg 3 200)])
    [candidate (oneLeg 1 300), candidate (oneLeg 2 100), candidate (oneLeg 3 200)] 2 :=
  (selection_exact (.byInsertion _) (fun _ => true) ⟨3, 0, 70⟩ (by decide) (by decide) 0 ⟨none⟩ []).1 _ (by decide)

end TorJet.Selection
