import TorJet.Base.Least
import TorJet.Selection.Filters

/-!
# The rotation of keep-alive streams

Keep-alive streams go to the set that has had the fewest streams, and each adds to the count of its set.
-/

namespace TorJet.Selection
open Base Smartlist Rotation

structure Pool where
  sets : List ConfluxSet
  ids : (sets.map ConfluxSet.id).Nodup
  owned : ∀ cfx ∈ sets, ∀ leg ∈ cfx.legs, leg.circ.conflux = some cfx.id

def ConfluxSet.addStream (cfx : ConfluxSet) (stream : StreamId) (circ : Circuit) : ConfluxSet :=
  let push (leg : Leg) : Leg := { leg with circ := { leg.circ with pStreams := stream :: circ.pStreams } }
  { cfx with first := push cfx.first, others := cfx.others.map push, totalStreams := cfx.totalStreams + 1 }

def linkApconnToCirc (stream : StreamId) (circ : Circuit) (sets : List ConfluxSet) : List ConfluxSet :=
  sets.map fun cfx => if circ.conflux = some cfx.id then cfx.addStream stream circ else cfx

section Link
variable {stream : StreamId} {circ : Circuit} {sets : List ConfluxSet} {cfx : ConfluxSet} {ok : CircId → Bool}

abbrev byId (ok : CircId → Bool) : Circuit → Bool := fun circ => ok circ.id

theorem usable_link : usable (byId ok) (if circ.conflux = some cfx.id then cfx.addStream stream circ else cfx).first.circ =
    usable (byId ok) cfx.first.circ := by
  split <;> rfl

theorem id_link : (if circ.conflux = some cfx.id then cfx.addStream stream circ else cfx).id = cfx.id := by
  split <;> rfl

theorem accepted_link : accepted (byId ok) (linkApconnToCirc stream circ sets) =
    linkApconnToCirc stream circ (accepted (byId ok) sets) := by
  rw [accepted, linkApconnToCirc, List.filter_map, linkApconnToCirc, accepted]
  congr 1
  apply List.filter_congr
  intro cfx _
  exact usable_link

theorem map_id_link : (linkApconnToCirc stream circ sets).map ConfluxSet.id = sets.map ConfluxSet.id := by
  rw [linkApconnToCirc, List.map_map]
  apply List.map_congr_left
  intro cfx _
  exact id_link

theorem owned_link (owned : ∀ cfx ∈ sets, ∀ leg ∈ cfx.legs, leg.circ.conflux = some cfx.id) :
    ∀ cfx ∈ linkApconnToCirc stream circ sets, ∀ leg ∈ cfx.legs, leg.circ.conflux = some cfx.id := by
  intro cfx mem leg inLegs
  obtain ⟨old, there, rfl⟩ := List.mem_map.mp mem
  rw [id_link]
  split at inLegs
  · rcases List.mem_cons.mp inLegs with rfl | later
    · exact owned old there old.first List.mem_cons_self
    · obtain ⟨before, inOthers, rfl⟩ := List.mem_map.mp later
      exact owned old there before (List.mem_cons_of_mem _ inOthers)
  · exact owned old there leg inLegs

end Link

def Pool.link (pool : Pool) (stream : StreamId) (circ : Circuit) : Pool where
  sets := linkApconnToCirc stream circ pool.sets
  ids := by
    rw [map_id_link]
    exact pool.ids
  owned := owned_link pool.owned

structure Arrival where
  conn : Conn
  stream : StreamId

structure Scene where
  qsort : Qsort confluxCandRttAscCmp
  ok : CircId → Bool
  opts : Options
  counter : Nat
  arrivals : Nat → Arrival

section Run
variable (w : Scene) (ok : CircId → Bool)

def choice (conn : Conn) (pool : Pool) : Option Circuit :=
  (confluxGetCircForConn w.qsort (byId w.ok) w.opts w.counter conn pool.sets).1

def attach (arrival : Arrival) (pool : Pool) : Pool :=
  match choice w arrival.conn pool with
  | none => pool
  | some circ => pool.link arrival.stream circ

def run (pool : Pool) : Nat → Pool
  | 0 => pool
  | k + 1 => attach w (w.arrivals k) (run pool k)

def picked (pool : Pool) (k : Nat) : Option SetId := (choice w (w.arrivals k).conn (run w pool k)).bind Circuit.conflux

def totals (pool : Pool) (i : Nat) : Nat := ((accepted (byId ok) pool.sets)[i]?.map fun cfx => cfx.totalStreams.val).getD 0

def turn (pool : Pool) : Nat := leastIndex Candidate.totalStreams (candidates (byId ok) pool.sets)

def Room (pool : Pool) (most : Nat) : Prop := ∀ cfx ∈ accepted (byId ok) pool.sets, cfx.totalStreams.val + most < 2 ^ 64

instance (pool : Pool) (most : Nat) : Decidable (Room ok pool most) := List.decidableBAll _ _

end Run

section Runs
variable {w : Scene} {ok : CircId → Bool} {pool : Pool} {conn : Conn}

theorem choice_keepalive (keepalive : confluxConnIsKeepalive conn = true) (some : accepted (byId w.ok) pool.sets ≠ []) :
    ∃ cfx, (accepted (byId w.ok) pool.sets)[turn w.ok pool]? = .some cfx ∧
      choice w conn pool = .some cfx.first.circ ∧ cfx.first.circ.conflux = .some cfx.id ∧
        Picks (accepted (byId w.ok) pool.sets).length (totals w.ok pool) (turn w.ok pool) := by
  have here : candidates (byId w.ok) pool.sets ≠ [] := mt List.map_eq_nil_iff.mp some
  have all : kept w.qsort (byId w.ok) w.opts conn pool.sets = candidates (byId w.ok) pool.sets := by
    rw [kept, keepalive, rttPctFilter_inactive (.inl rfl), rttMaxFilter, if_neg (by simp)]
  obtain ⟨c, at_c⟩ := leastIndex_spec Candidate.totalStreams here
  obtain ⟨i, place⟩ : ∃ i, turn w.ok pool = i := ⟨_, rfl⟩
  change LeastAt _ _ (turn w.ok pool) c at at_c
  rw [place] at at_c ⊢
  rw [turn] at place
  have found := at_c.here
  rw [candidates, List.getElem?_map] at found
  obtain ⟨cfx, there, rfl⟩ := Option.map_eq_some_iff.mp found
  have mem := List.mem_of_mem_filter (List.mem_of_getElem? there)
  refine ⟨cfx, there, ?_, pool.owned cfx mem cfx.first List.mem_cons_self, ?_⟩
  · simp only [choice, confluxGetCircForConn, all, keepalive, confluxPickSetFromCandidates, if_neg here, if_true, place,
      at_c.here]
    rfl
  · refine ⟨(List.getElem?_eq_some_iff.mp there).1, fun j inside other => ?_⟩
    have at_j : (candidates (byId w.ok) pool.sets)[j]? = .some (candidate ((accepted (byId w.ok) pool.sets).get ⟨j, inside⟩)) := by
      rw [candidates, List.getElem?_map, List.getElem?_eq_getElem inside]
      rfl
    have le := at_c.least _ (List.mem_of_getElem? at_j)
    rw [Ahead, totals, totals, there, List.getElem?_eq_getElem inside]
    simp only [Option.map_some, Option.getD_some]
    rcases Nat.lt_or_eq_of_le (Fin.le_def.mp le) with less | equal
    · exact .inl less
    · refine .inr ⟨equal, ?_⟩
      by_contra late
      have earlier := at_c.first j _ at_j (by omega)
      exact absurd (Fin.lt_def.mp earlier) (by omega)

theorem totals_link (stream : StreamId) {i : Nat} {cfx : ConfluxSet} (there : (accepted (byId ok) pool.sets)[i]? = some cfx)
    (points : cfx.first.circ.conflux = some cfx.id) (room : totals ok pool i + 1 < 2 ^ 64) :
    Served (accepted (byId ok) pool.sets).length (totals ok pool) i (totals ok (pool.link stream cfx.first.circ)) := by
  intro j inside
  have nodup : ((accepted (byId ok) pool.sets).map ConfluxSet.id).Nodup := by
    rw [accepted]
    exact pool.ids.sublist (List.filter_sublist.map _)
  have other := List.getElem?_eq_getElem inside
  have after : (accepted (byId ok) (pool.link stream cfx.first.circ).sets)[j]? =
      some (if some cfx.id = some ((accepted (byId ok) pool.sets).get ⟨j, inside⟩).id then
        ((accepted (byId ok) pool.sets).get ⟨j, inside⟩).addStream stream cfx.first.circ
        else (accepted (byId ok) pool.sets).get ⟨j, inside⟩) := by
    rw [← points]
    change (accepted (byId ok) (linkApconnToCirc _ _ _))[j]? = _
    rw [accepted_link, linkApconnToCirc, List.getElem?_map, other]
    rfl
  rw [totals, after, totals, other]
  simp only [Option.map_some, Option.getD_some]
  by_cases same : j = i
  · subst same
    obtain rfl : (accepted (byId ok) pool.sets).get ⟨j, inside⟩ = cfx := Option.some.inj (other.symm.trans there)
    rw [if_pos rfl, if_pos rfl]
    rw [totals, other] at room
    simp only [Option.map_some, Option.getD_some] at room
    exact Fin.val_add_one_of_lt' room
  · rw [if_neg same, if_neg, Nat.add_zero]
    · rfl
    · intro equal
      apply same
      obtain ⟨inI, at_i⟩ := List.getElem?_eq_some_iff.mp there
      apply (List.nodup_iff_injective_get.mp nodup |>.eq_iff (a := ⟨j, by simpa using inside⟩)
        (b := ⟨i, by simpa using inI⟩)).mp ?_ |> Fin.mk.inj
      simp only [List.get_eq_getElem, List.getElem_map, at_i]
      exact (Option.some.inj equal).symm

theorem totals_of_getElem? {i : Nat} {cfx : ConfluxSet} (there : (accepted (byId ok) pool.sets)[i]? = some cfx) :
    totals ok pool i = cfx.totalStreams.val := by
  rw [totals, there]
  rfl

theorem Room.totals {most i : Nat} (room : Room ok pool most) (inside : i < (accepted (byId ok) pool.sets).length) :
    totals ok pool i + most < 2 ^ 64 := by
  have there := List.getElem?_eq_getElem inside
  rw [totals_of_getElem? there]
  exact room _ (List.getElem_mem inside)

theorem accepted_run (w : Scene) (pool : Pool) (k : Nat) : (accepted (byId w.ok) (run w pool k).sets).map ConfluxSet.id =
    (accepted (byId w.ok) pool.sets).map ConfluxSet.id := by
  induction k with
  | zero => rfl
  | succ k ih =>
      rw [run, attach]
      split
      · exact ih
      · change (accepted (byId w.ok) (linkApconnToCirc _ _ _)).map ConfluxSet.id = _
        rw [accepted_link, map_id_link, ih]

theorem length_run (w : Scene) (pool : Pool) (k : Nat) : (accepted (byId w.ok) (run w pool k).sets).length =
    (accepted (byId w.ok) pool.sets).length := by
  have lengths := congrArg List.length (accepted_run w pool k)
  rwa [List.length_map, List.length_map] at lengths

variable (keepalive : ∀ k, confluxConnIsKeepalive (w.arrivals k).conn = true)
include keepalive

theorem run_served (some : accepted (byId w.ok) pool.sets ≠ []) (k : Nat)
    (room : ∀ i < (accepted (byId w.ok) pool.sets).length, totals w.ok (run w pool k) i + 1 < 2 ^ 64) :
    Picks (accepted (byId w.ok) pool.sets).length (totals w.ok (run w pool k))
        (turn w.ok (run w pool k)) ∧
      Served (accepted (byId w.ok) pool.sets).length (totals w.ok (run w pool k))
        (turn w.ok (run w pool k)) (totals w.ok (run w pool (k + 1))) := by
  have length := length_run w pool k
  have here : accepted (byId w.ok) (run w pool k).sets ≠ [] := by
    rw [← List.length_pos_iff, length]
    exact List.length_pos_iff.mpr some
  obtain ⟨cfx, there, chosen, points, picks⟩ := choice_keepalive (keepalive k) here
  rw [length] at picks
  refine ⟨picks, ?_⟩
  have served := totals_link (w.arrivals k).stream there points (room _ picks.inside)
  rw [length] at served
  rw [run, attach, chosen]
  exact served

theorem totals_run_le (some : accepted (byId w.ok) pool.sets ≠ []) {most : Nat} (room : Room w.ok pool most) (k : Nat)
    (early : k ≤ most) (i : Nat) (inside : i < (accepted (byId w.ok) pool.sets).length) :
    totals w.ok (run w pool k) i ≤ totals w.ok pool i + k := by
  induction k generalizing i with
  | zero => exact Nat.le_refl _
  | succ k ih =>
      have before := ih (by omega)
      have served := (run_served keepalive some k fun i inside => by
        have := before i inside
        have := room.totals inside
        omega).2 i inside
      have le := before i inside
      rw [served]
      split <;> omega

theorem run_turns (some : accepted (byId w.ok) pool.sets ≠ []) {most : Nat} (room : Room w.ok pool most) :
    Turns (accepted (byId w.ok) pool.sets).length (fun k => totals w.ok (run w pool k))
      (fun k => turn w.ok (run w pool k)) most := by
  have each (k : Nat) (early : k < most) := run_served keepalive some k fun i inside => by
    have := totals_run_le keepalive some room k early.le i inside
    have := room.totals inside
    omega
  exact ⟨fun k early => (each k early).1, fun k early => (each k early).2⟩

theorem picked_iff (some : accepted (byId w.ok) pool.sets ≠ []) {j : Nat} {cfx : ConfluxSet}
    (there : (accepted (byId w.ok) pool.sets)[j]? = .some cfx) (k : Nat) :
    picked w pool k = .some cfx.id ↔ turn w.ok (run w pool k) = j := by
  have ids := accepted_run w pool k
  have length := length_run w pool k
  have here : accepted (byId w.ok) (run w pool k).sets ≠ [] := by
    rw [← List.length_pos_iff, length]
    exact List.length_pos_iff.mpr some
  obtain ⟨chosen, at_turn, choice, points, -⟩ := choice_keepalive (keepalive k) here
  have nodup : ((accepted (byId w.ok) pool.sets).map ConfluxSet.id).Nodup := by
    rw [accepted]
    exact pool.ids.sublist (List.filter_sublist.map _)
  have one : ((accepted (byId w.ok) pool.sets).map ConfluxSet.id)[turn w.ok (run w pool k)]? =
      .some chosen.id := by
    rw [← ids, List.getElem?_map, at_turn]
    rfl
  have other : ((accepted (byId w.ok) pool.sets).map ConfluxSet.id)[j]? = .some cfx.id := by
    rw [List.getElem?_map, there]
    rfl
  rw [picked, choice, Option.bind_some, points]
  constructor
  · intro same
    rw [same, ← other] at one
    exact (List.getElem?_inj (List.getElem?_eq_some_iff.mp (one.trans other)).1 nodup).mp one
  · intro same
    rw [same] at one
    exact one.symm.trans other

end Runs

def Covered (w : Scene) (pool : Pool) (k : Nat) : Prop :=
  ∀ cfx ∈ accepted (byId w.ok) pool.sets,
    ∃ m, k ≤ m ∧ m < k + 2 * (accepted (byId w.ok) pool.sets).length ∧ picked w pool m = some cfx.id

def Level (ok : CircId → Bool) (pool : Pool) : Prop :=
  ∀ j < (accepted (byId ok) pool.sets).length,
    lag (accepted (byId ok) pool.sets).length (totals ok pool) j < 2 * (accepted (byId ok) pool.sets).length

instance (ok : CircId → Bool) (pool : Pool) : Decidable (Level ok pool) := Nat.decidableBallLT _ _

section Cover
variable {w : Scene} {pool : Pool} {k : Nat} (keepalive : ∀ k, confluxConnIsKeepalive (w.arrivals k).conn = true)
include keepalive

theorem covered_of_level (room : Room w.ok pool (k + 2 * (accepted (byId w.ok) pool.sets).length))
    (level : Level w.ok pool) : Covered w pool k := by
  intro cfx mem
  have some := List.ne_nil_of_mem mem
  obtain ⟨j, inside, there⟩ := List.getElem_of_mem mem
  have at_j : (accepted (byId w.ok) pool.sets)[j]? = .some cfx := by rw [List.getElem?_eq_getElem inside, there]
  have turns := run_turns keepalive some room
  have soon : lag (accepted (byId w.ok) pool.sets).length (totals w.ok (run w pool k)) j <
      2 * (accepted (byId w.ok) pool.sets).length := turns.lag_lt inside (by omega) (level j inside) k (by omega)
  refine ⟨k + lag (accepted (byId w.ok) pool.sets).length (totals w.ok (run w pool k)) j, by omega, by omega, ?_⟩
  exact (picked_iff keepalive some at_j _).mpr (turns.turn_after_lag inside k (by omega))

theorem lag_lt_of_covered (room : Room w.ok pool (2 * (accepted (byId w.ok) pool.sets).length))
    (covered : Covered w pool 0) : Level w.ok pool := by
  intro j inside
  have some : accepted (byId w.ok) pool.sets ≠ [] := List.length_pos_iff.mp (by omega)
  have at_j := List.getElem?_eq_getElem inside
  obtain ⟨m, -, early, mine⟩ := covered _ (List.getElem_mem inside)
  rw [Nat.zero_add] at early
  have turn := (picked_iff keepalive some at_j m).mp mine
  by_contra far
  exact (run_turns keepalive some room).no_turn_before inside (by exact early.trans_le (not_lt.mp far)) early turn

omit keepalive in
/-- Every window of keep-alive streams in which no counter wraps covers every set exactly where the counters are
level from the start. -/
theorem keepalive_covers_iff (w : Scene) (pool : Pool)
    (keepalive : ∀ k, confluxConnIsKeepalive (w.arrivals k).conn = true) :
    (∀ k, Room w.ok pool (k + 2 * (accepted (byId w.ok) pool.sets).length) → Covered w pool k) ↔
      (Room w.ok pool (2 * (accepted (byId w.ok) pool.sets).length) → Level w.ok pool) := by
  constructor
  · intro covers room
    have start := covers 0
    rw [Nat.zero_add] at start
    exact lag_lt_of_covered keepalive room (start room)
  · intro level k room
    refine covered_of_level keepalive room (level fun cfx mem => ?_)
    have := room cfx mem
    omega

end Cover

def keepaliveScene : Scene where
  qsort := .byInsertion _
  ok _ := true
  opts := ⟨1, 0, 0⟩
  counter := 0
  arrivals k := ⟨⟨some CONFLUX_KEEPALIVE_USERNAME⟩, k⟩

def twoSets (first second : Word) : Pool where
  sets := [{ oneLeg 1 100 with totalStreams := first }, { oneLeg 2 100 with totalStreams := second }]
  ids := by simp [oneLeg]
  owned := by simp [ConfluxSet.legs, oneLeg]

theorem level_sets_covered : Covered keepaliveScene (twoSets 1 2) 0 :=
  (keepalive_covers_iff keepaliveScene (twoSets 1 2) fun _ => rfl).mpr (fun _ => by decide) 0 (by decide)

/-- A set that has had a hundred streams waits until a new one has had as many. -/
theorem new_set_takes_all :
    ¬ ∀ (w : Scene) (pool : Pool), (∀ k, confluxConnIsKeepalive (w.arrivals k).conn = true) → ∀ k, Covered w pool k := by
  intro covers
  have room : Room keepaliveScene.ok (twoSets 0 100) 4 := by decide
  have level := lag_lt_of_covered (fun _ => rfl) room (covers keepaliveScene (twoSets 0 100) (fun _ => rfl) 0)
  exact absurd (level 1 (by decide)) (by decide)

end TorJet.Selection
