import Mathlib.Algebra.Order.Ring.Nat
import TorJet.Base.Bits
import TorJet.Base.Machine
import TorJet.Base.Ring

/-!
# Circuit build times

The circular array of build times, and the ring of the recent circuits that got to their first hop. A write outside
an array has no result.
-/

namespace TorJet.Circuitstats
open Base

def cbtNcircuitsToObserve : Nat := 1000

def cbtBuildTimeMax : Nat := 2 ^ 31 - 1

def cbtBuildAbandoned : Nat := 2 ^ 31 - 2

def cbtDefaultRecentCircuits : Int := 20
def cbtMinRecentCircuits : Nat := 3
def cbtMaxRecentCircuits : Nat := 1000
def cbtDefaultMaxRecentTimeoutCount : Int := 18
def cbtMinMaxRecentTimeoutCount : Nat := 3
def cbtMaxMaxRecentTimeoutCount : Nat := 10000

structure NetworkLiveness where
  networkLastLive : Int
  nonliveTimeouts : Nat
  timeoutsAfterFirsthop : Option (List Nat)
  numRecentCircs : Nat
  afterFirsthopIdx : Nat
  deriving DecidableEq

/-- `circuit_build_times_t`, without what is computed in floating point. -/
structure CircuitBuildTimes where
  circuitBuildTimes : List Nat
  buildTimesIdx : Nat
  totalBuildTimes : Nat
  liveness : NetworkLiveness
  numCircSucceeded : Nat
  numCircTimeouts : Nat
  numCircClosed : Nat
  deriving DecidableEq

def networkstatusGetParam (value : Option Int) (default : Int) (lo hi : Nat) : Nat := clampTo lo hi (value.getD default)

def circuitBuildTimesRecentCircuitCount (cbtrecentcount : Option Int) : Nat :=
  networkstatusGetParam cbtrecentcount cbtDefaultRecentCircuits cbtMinRecentCircuits cbtMaxRecentCircuits

def circuitBuildTimesMaxTimeouts (cbtmaxtimeouts : Option Int) : Nat :=
  networkstatusGetParam cbtmaxtimeouts cbtDefaultMaxRecentTimeoutCount cbtMinMaxRecentTimeoutCount
    cbtMaxMaxRecentTimeoutCount

def circuitBuildTimesInit (disabled : Bool) (cbtrecentcount : Option Int) : CircuitBuildTimes :=
  let num := circuitBuildTimesRecentCircuitCount cbtrecentcount
  { circuitBuildTimes := List.replicate cbtNcircuitsToObserve 0
    buildTimesIdx := 0
    totalBuildTimes := 0
    liveness :=
      { networkLastLive := 0
        nonliveTimeouts := 0
        timeoutsAfterFirsthop := if disabled then none else some (List.replicate num 0)
        numRecentCircs := if disabled then 0 else num
        afterFirsthopIdx := 0 }
    numCircSucceeded := 0
    numCircTimeouts := 0
    numCircClosed := 0 }

namespace NetworkLiveness

def circuitBuildTimesFreeTimeouts (liveness : NetworkLiveness) : NetworkLiveness :=
  { liveness with timeoutsAfterFirsthop := none, numRecentCircs := 0 }

/-- The reallocation in `circuit_build_times_new_consensus_params`. -/
def reallocate (liveness : NetworkLiveness) (num : Nat) : Option NetworkLiveness :=
  match liveness.timeoutsAfterFirsthop with
  | none =>
      -- the code asserts that there is no ring without a size
      if liveness.numRecentCircs = 0 then
        some { liveness with timeoutsAfterFirsthop := some (List.replicate num 0), numRecentCircs := num }
      else none
  | some cells =>
      let copied := min num liveness.numRecentCircs
      if copied ≤ cells.length then
        some
          { liveness with
            timeoutsAfterFirsthop := some (cells.take copied ++ List.replicate (num - copied) 0)
            afterFirsthopIdx :=
              if num < liveness.numRecentCircs then min (num - 1) liveness.afterFirsthopIdx
              else liveness.afterFirsthopIdx
            numRecentCircs := num }
      else none

def enter (liveness : NetworkLiveness) (timedOut : Nat) : Option NetworkLiveness :=
  match liveness.timeoutsAfterFirsthop with
  | none => some liveness
  | some cells =>
      if liveness.numRecentCircs > 0 then
        (store cells liveness.afterFirsthopIdx timedOut).map fun cells =>
          { liveness with
            timeoutsAfterFirsthop := some cells
            afterFirsthopIdx := (liveness.afterFirsthopIdx + 1) % liveness.numRecentCircs }
      else some liveness

def timeoutCount (liveness : NetworkLiveness) : Option Nat :=
  match liveness.timeoutsAfterFirsthop with
  | none => some 0
  | some cells =>
      if liveness.numRecentCircs ≤ cells.length then some ((cells.take liveness.numRecentCircs).foldl (· + ·) 0)
      else none

def clear (liveness : NetworkLiveness) : NetworkLiveness :=
  { liveness with
    timeoutsAfterFirsthop :=
      liveness.timeoutsAfterFirsthop.map fun cells =>
        List.replicate liveness.numRecentCircs 0 ++ cells.drop liveness.numRecentCircs
    afterFirsthopIdx := 0 }

end NetworkLiveness

namespace CircuitBuildTimes

def circuitBuildTimesNewConsensusParams (cbt : CircuitBuildTimes) (disabled : Bool) (cbtrecentcount : Option Int) :
    Option CircuitBuildTimes :=
  if !disabled then
    let num := circuitBuildTimesRecentCircuitCount cbtrecentcount
    if num > 0 then
      if num ≠ cbt.liveness.numRecentCircs then
        (cbt.liveness.reallocate num).map fun liveness => { cbt with liveness := liveness }
      else some cbt
    else some { cbt with liveness := cbt.liveness.circuitBuildTimesFreeTimeouts }
  else some { cbt with liveness := cbt.liveness.circuitBuildTimesFreeTimeouts }

def circuitBuildTimesReset (cbt : CircuitBuildTimes) : CircuitBuildTimes :=
  { cbt with
    circuitBuildTimes := List.replicate cbtNcircuitsToObserve 0
    totalBuildTimes := 0
    buildTimesIdx := 0
    numCircSucceeded := 0
    numCircClosed := 0
    numCircTimeouts := 0 }

/-- `circuit_build_times_add_time`; a time that is out of range is refused. -/
def circuitBuildTimesAddTime (cbt : CircuitBuildTimes) (btime : Nat) : Option CircuitBuildTimes :=
  if btime ≤ 0 ∨ btime > cbtBuildTimeMax then some cbt
  else
    (store cbt.circuitBuildTimes cbt.buildTimesIdx btime).map fun times =>
      { cbt with
        circuitBuildTimes := times
        buildTimesIdx := (cbt.buildTimesIdx + 1) % cbtNcircuitsToObserve
        totalBuildTimes :=
          if cbt.totalBuildTimes < cbtNcircuitsToObserve then cbt.totalBuildTimes + 1 else cbt.totalBuildTimes }

/-- `circuit_build_times_scale_circ_counts` when a count would become negative as an `int32_t`. -/
def circuitBuildTimesScaleCircCounts (cbt : CircuitBuildTimes) (count : Nat) : CircuitBuildTimes :=
  if count ≥ 2 ^ 31 - 1 then
    { cbt with
      numCircSucceeded := cbt.numCircSucceeded / 2
      numCircTimeouts := cbt.numCircTimeouts / 2
      numCircClosed := cbt.numCircClosed / 2 }
  else cbt

def circuitBuildTimesNetworkCircSuccess (cbt : CircuitBuildTimes) : Option CircuitBuildTimes :=
  let count := wrap 32 (cbt.numCircSucceeded + 1)
  let cbt := { cbt with numCircSucceeded := count }.circuitBuildTimesScaleCircCounts count
  (cbt.liveness.enter 0).map fun liveness => { cbt with liveness := liveness }

def circuitBuildTimesNetworkTimeout (cbt : CircuitBuildTimes) (didOnehop : Bool) : Option CircuitBuildTimes :=
  let count := wrap 32 (cbt.numCircTimeouts + 1)
  let cbt := { cbt with numCircTimeouts := count }.circuitBuildTimesScaleCircCounts count
  if didOnehop then (cbt.liveness.enter 1).map fun liveness => { cbt with liveness := liveness } else some cbt

def circuitBuildTimesNetworkCheckChanged (cbt : CircuitBuildTimes) (cbtmaxtimeouts : Option Int) :
    Option CircuitBuildTimes :=
  cbt.liveness.timeoutCount.map fun timeoutCount =>
    if timeoutCount < circuitBuildTimesMaxTimeouts cbtmaxtimeouts then cbt
    else { cbt.circuitBuildTimesReset with liveness := cbt.liveness.clear }

def circuitBuildTimesCountTimeout (cbt : CircuitBuildTimes) (disabled didOnehop : Bool) (cbtmaxtimeouts : Option Int) :
    Option CircuitBuildTimes :=
  if disabled then some cbt
  else
    (cbt.circuitBuildTimesNetworkTimeout didOnehop).bind fun cbt =>
      cbt.circuitBuildTimesNetworkCheckChanged cbtmaxtimeouts

def circuitBuildTimesNetworkClose (cbt : CircuitBuildTimes) (startTime : Int) : CircuitBuildTimes :=
  let count := wrap 32 (cbt.numCircClosed + 1)
  let cbt := { cbt with numCircClosed := count }.circuitBuildTimesScaleCircCounts count
  if cbt.liveness.networkLastLive < startTime then
    { cbt with liveness := { cbt.liveness with nonliveTimeouts := cbt.liveness.nonliveTimeouts + 1 } }
  else cbt

def circuitBuildTimesNetworkCheckLive (cbt : CircuitBuildTimes) : Bool := !(cbt.liveness.nonliveTimeouts > 0)

def circuitBuildTimesCountClose (cbt : CircuitBuildTimes) (disabled : Bool) (startTime : Int) :
    Option CircuitBuildTimes :=
  if disabled then some cbt
  else
    let cbt := cbt.circuitBuildTimesNetworkClose startTime
    if !cbt.circuitBuildTimesNetworkCheckLive then some cbt else cbt.circuitBuildTimesAddTime cbtBuildAbandoned

def circuitBuildTimesNetworkIsLive (cbt : CircuitBuildTimes) (now : Int) : CircuitBuildTimes :=
  { cbt with liveness := { cbt.liveness with networkLastLive := now, nonliveTimeouts := 0 } }

/-- The loop of `circuit_build_times_update_alpha`: the number of samples, and of circuits that were abandoned. -/
def countSamples (xm : Nat) : Nat → Nat → List Nat → Nat × Nat
  | n, abandonedCount, [] => (n, abandonedCount)
  | n, abandonedCount, x :: rest =>
      if x = 0 then countSamples xm n abandonedCount rest
      else if x < xm then countSamples xm (n + 1) abandonedCount rest
      else if x = cbtBuildAbandoned then countSamples xm n (abandonedCount + 1) rest
      else countSamples xm (n + 1) abandonedCount rest

end CircuitBuildTimes

inductive Event
  | newConsensusParams (disabled : Bool) (cbtrecentcount : Option Int)
  | circSuccess
  | countTimeout (disabled didOnehop : Bool) (cbtmaxtimeouts : Option Int)
  | addTime (btime : Nat)
  | countClose (disabled : Bool) (startTime : Int)
  | networkIsLive (now : Int)
  | reset
  deriving DecidableEq, Repr

def CircuitBuildTimes.step (cbt : CircuitBuildTimes) : Event → Option CircuitBuildTimes
  | .newConsensusParams disabled cbtrecentcount => cbt.circuitBuildTimesNewConsensusParams disabled cbtrecentcount
  | .circSuccess => cbt.circuitBuildTimesNetworkCircSuccess
  | .countTimeout disabled didOnehop cbtmaxtimeouts =>
      cbt.circuitBuildTimesCountTimeout disabled didOnehop cbtmaxtimeouts
  | .addTime btime => cbt.circuitBuildTimesAddTime btime
  | .countClose disabled startTime => cbt.circuitBuildTimesCountClose disabled startTime
  | .networkIsLive now => some (cbt.circuitBuildTimesNetworkIsLive now)
  | .reset => some cbt.circuitBuildTimesReset

def history : Machine CircuitBuildTimes Event := ⟨CircuitBuildTimes.step⟩

end TorJet.Circuitstats

/-!
## The rings stay in bounds

The array of build times always has as many times in it as are counted. The ring of recent circuits keeps its index
inside, except where it comes back smaller than its index after adaptive timeouts were off.
-/

namespace TorJet.Circuitstats
open Base

def isTime (x : Nat) : Bool := x ≠ 0

structure NetworkLiveness.RingBounded (liveness : NetworkLiveness) : Prop where
  allocated : ∀ cells, liveness.timeoutsAfterFirsthop = some cells →
    0 < liveness.numRecentCircs ∧ cells.length = liveness.numRecentCircs ∧
      liveness.afterFirsthopIdx < liveness.numRecentCircs ∧ ∀ x ∈ cells, x = 0 ∨ x = 1
  absent : liveness.timeoutsAfterFirsthop = none → liveness.numRecentCircs = 0

/-- What holds of the build times between two calls; the last part is the assertion of
`circuit_build_times_update_alpha`. -/
structure CircuitBuildTimes.Bounded (cbt : CircuitBuildTimes) : Prop where
  ring : cbt.liveness.RingBounded
  idx : cbt.buildTimesIdx < cbtNcircuitsToObserve
  total : cbt.totalBuildTimes = cbt.circuitBuildTimes.countP isTime
  samples : ∀ xm, ((CircuitBuildTimes.countSamples xm 0 0 cbt.circuitBuildTimes).1 : Int) =
    cbt.totalBuildTimes - (CircuitBuildTimes.countSamples xm 0 0 cbt.circuitBuildTimes).2

def Roomy (cbt : CircuitBuildTimes) : Event → Prop
  | .newConsensusParams disabled cbtrecentcount => disabled = false → cbt.liveness.timeoutsAfterFirsthop = none →
      cbt.liveness.afterFirsthopIdx < circuitBuildTimesRecentCircuitCount cbtrecentcount
  | _ => True

theorem recentCircuitCount_pos {cbtrecentcount : Option Int} :
    0 < circuitBuildTimesRecentCircuitCount cbtrecentcount := by
  have range := (@clampTo_range cbtMinRecentCircuits cbtMaxRecentCircuits
    (cbtrecentcount.getD cbtDefaultRecentCircuits) (by decide)).1
  exact Nat.lt_of_lt_of_le (by decide) range

theorem countSamples_sum {xm n abandoned : Nat} {times : List Nat} :
    (CircuitBuildTimes.countSamples xm n abandoned times).1 +
      (CircuitBuildTimes.countSamples xm n abandoned times).2 = n + abandoned + times.countP isTime := by
  induction times generalizing n abandoned with
  | nil => rfl
  | cons x rest ih =>
      rw [CircuitBuildTimes.countSamples, List.countP_cons]
      split
      · rename_i zero
        rw [ih, zero]
        rfl
      · rename_i positive
        have time : isTime x = true := decide_eq_true positive
        rw [if_pos time]
        split
        · rw [ih]
          omega
        · split <;> rw [ih] <;> omega

namespace NetworkLiveness
variable {liveness after : NetworkLiveness} {num timedOut : Nat}

theorem RingBounded.free : liveness.circuitBuildTimesFreeTimeouts.RingBounded where
  allocated := by
    intro cells there
    cases there
  absent := fun _ => rfl

theorem flags_replicate {n x : Nat} (mem : x ∈ List.replicate n 0) : x = 0 ∨ x = 1 := .inl (List.eq_of_mem_replicate mem)

theorem RingBounded.reallocate (bounded : liveness.RingBounded) (positive : 0 < num) :
    ∃ after, liveness.reallocate num = some after ∧
      (after.RingBounded ↔ (liveness.timeoutsAfterFirsthop = none → liveness.afterFirsthopIdx < num)) := by
  unfold NetworkLiveness.reallocate
  cases ring : liveness.timeoutsAfterFirsthop with
  | none =>
      refine ⟨_, if_pos (bounded.absent ring), ?_⟩
      simp only [forall_const]
      constructor
      · intro after
        exact (after.allocated _ rfl).2.2.1
      · intro inside
        refine ⟨?_, by simp⟩
        intro cells there
        obtain rfl := Option.some.inj there
        exact ⟨positive, List.length_replicate, inside, fun x mem => flags_replicate mem⟩
  | some cells =>
      obtain ⟨size, length, inside, flags⟩ := bounded.allocated cells ring
      refine ⟨_, if_pos (by omega), iff_of_true ⟨?_, by simp⟩ (by simp)⟩
      intro copy there
      obtain rfl := Option.some.inj there
      refine ⟨positive, ?_, ?_, ?_⟩
      · simp only [List.length_append, List.length_take, List.length_replicate]
        omega
      · simp only
        split <;> omega
      · intro x mem
        rcases List.mem_append.mp mem with old | new
        · exact flags x (List.mem_of_mem_take old)
        · exact flags_replicate new

theorem RingBounded.enter (bounded : liveness.RingBounded) (flag : timedOut = 0 ∨ timedOut = 1) :
    ∃ after, liveness.enter timedOut = some after ∧ after.RingBounded := by
  unfold NetworkLiveness.enter
  cases ring : liveness.timeoutsAfterFirsthop with
  | none => exact ⟨liveness, rfl, bounded⟩
  | some cells =>
      obtain ⟨size, length, inside, flags⟩ := bounded.allocated cells ring
      simp only
      rw [if_pos size, store_of_lt (by omega), Option.map_some]
      refine ⟨_, rfl, ?_, by simp⟩
      intro written there
      obtain rfl := Option.some.inj there
      refine ⟨size, by rw [List.length_set, length], Nat.mod_lt _ size, ?_⟩
      intro x mem
      rcases List.mem_or_eq_of_mem_set mem with old | rfl
      · exact flags x old
      · exact flag

theorem RingBounded.timeoutCount (bounded : liveness.RingBounded) : ∃ count, liveness.timeoutCount = some count := by
  unfold NetworkLiveness.timeoutCount
  cases ring : liveness.timeoutsAfterFirsthop with
  | none => exact ⟨0, rfl⟩
  | some cells =>
      obtain ⟨-, length, -, -⟩ := bounded.allocated cells ring
      exact ⟨_, if_pos (Nat.le_of_eq length.symm)⟩

theorem RingBounded.clear (bounded : liveness.RingBounded) : liveness.clear.RingBounded where
  allocated := by
    intro cleared there
    obtain ⟨cells, ring, rfl⟩ := Option.map_eq_some_iff.mp there
    obtain ⟨size, length, -, flags⟩ := bounded.allocated cells ring
    refine ⟨size, ?_, size, ?_⟩
    · simp only [NetworkLiveness.clear, List.length_append, List.length_replicate, List.length_drop]
      omega
    · intro x mem
      rcases List.mem_append.mp mem with new | old
      · exact flags_replicate new
      · exact flags x (List.mem_of_mem_drop old)
  absent := by
    intro there
    exact bounded.absent (Option.map_eq_none_iff.mp there)

end NetworkLiveness

namespace CircuitBuildTimes
variable {cbt after : CircuitBuildTimes} {e : Event} {btime count : Nat}

structure Filled (cbt : CircuitBuildTimes) : Prop where
  size : cbt.circuitBuildTimes.length = cbtNcircuitsToObserve
  used : Used isTime cbt.circuitBuildTimes cbt.buildTimesIdx cbt.totalBuildTimes

def SameTimes (cbt after : CircuitBuildTimes) : Prop :=
  after.circuitBuildTimes = cbt.circuitBuildTimes ∧ after.buildTimesIdx = cbt.buildTimesIdx ∧
    after.totalBuildTimes = cbt.totalBuildTimes

theorem Filled.same (filled : cbt.Filled) (same : cbt.SameTimes after) : after.Filled := by
  obtain ⟨times, idx, total⟩ := same
  refine ⟨by rw [times, filled.size], ?_⟩
  rw [times, idx, total]
  exact filled.used

theorem Filled.bounded (filled : cbt.Filled) (ring : cbt.liveness.RingBounded) : cbt.Bounded where
  ring := ring
  idx := filled.size ▸ filled.used.inside
  total := filled.used.countP.symm
  samples := by
    intro xm
    have sum := @countSamples_sum xm 0 0 cbt.circuitBuildTimes
    have total := filled.used.countP
    omega

theorem Filled.reset (cbt : CircuitBuildTimes) : cbt.circuitBuildTimesReset.Filled where
  size := List.length_replicate
  used := used_replicate rfl (by decide)

theorem Filled.addTime (filled : cbt.Filled) :
    ∃ after, cbt.circuitBuildTimesAddTime btime = some after ∧ after.Filled ∧ after.liveness = cbt.liveness := by
  rw [circuitBuildTimesAddTime]
  split
  · exact ⟨cbt, rfl, filled, rfl⟩
  · rename_i range
    rw [filled.used.store, Option.map_some]
    refine ⟨_, rfl, ⟨?_, ?_⟩, rfl⟩
    · rw [List.length_set, filled.size]
    · have pushed := @Used.push _ isTime _ _ _ btime filled.used (decide_eq_true (by omega))
      rw [filled.size] at pushed
      exact pushed

theorem scale_liveness : (cbt.circuitBuildTimesScaleCircCounts count).liveness = cbt.liveness := by
  unfold circuitBuildTimesScaleCircCounts
  split <;> rfl

theorem SameTimes.scale (same : cbt.SameTimes after) : cbt.SameTimes (after.circuitBuildTimesScaleCircCounts count) := by
  unfold circuitBuildTimesScaleCircCounts
  split <;> exact same

def Keeps (result : Option CircuitBuildTimes) : Prop :=
  ∃ after, result = some after ∧ after.Filled ∧ after.liveness.RingBounded

theorem circSuccess_keeps (filled : cbt.Filled) (ring : cbt.liveness.RingBounded) :
    Keeps cbt.circuitBuildTimesNetworkCircSuccess := by
  obtain ⟨liveness, entered, bounded⟩ := ring.enter (.inl rfl)
  simp only [circuitBuildTimesNetworkCircSuccess, scale_liveness, entered, Option.map_some]
  refine ⟨_, rfl, ?_, bounded⟩
  exact filled.same (SameTimes.scale ⟨rfl, rfl, rfl⟩)

theorem networkTimeout_keeps {didOnehop : Bool} (filled : cbt.Filled) (ring : cbt.liveness.RingBounded) :
    Keeps (cbt.circuitBuildTimesNetworkTimeout didOnehop) := by
  obtain ⟨liveness, entered, bounded⟩ := ring.enter (.inr rfl)
  simp only [circuitBuildTimesNetworkTimeout, scale_liveness, entered, Option.map_some]
  split
  · refine ⟨_, rfl, ?_, bounded⟩
    exact filled.same (SameTimes.scale ⟨rfl, rfl, rfl⟩)
  · refine ⟨_, rfl, filled.same (SameTimes.scale ⟨rfl, rfl, rfl⟩), ?_⟩
    rw [scale_liveness]
    exact ring

theorem checkChanged_keeps {cbtmaxtimeouts : Option Int} (filled : cbt.Filled) (ring : cbt.liveness.RingBounded) :
    Keeps (cbt.circuitBuildTimesNetworkCheckChanged cbtmaxtimeouts) := by
  obtain ⟨timeouts, counted⟩ := ring.timeoutCount
  rw [circuitBuildTimesNetworkCheckChanged, counted, Option.map_some]
  split
  · exact ⟨cbt, rfl, filled, ring⟩
  · refine ⟨_, rfl, ?_, ring.clear⟩
    exact (Filled.reset cbt).same ⟨rfl, rfl, rfl⟩

theorem countTimeout_keeps {disabled didOnehop : Bool} {cbtmaxtimeouts : Option Int} (filled : cbt.Filled)
    (ring : cbt.liveness.RingBounded) :
    Keeps (cbt.circuitBuildTimesCountTimeout disabled didOnehop cbtmaxtimeouts) := by
  rw [circuitBuildTimesCountTimeout]
  split
  · exact ⟨cbt, rfl, filled, ring⟩
  · obtain ⟨after, registered, filled', ring'⟩ := @networkTimeout_keeps cbt didOnehop filled ring
    rw [registered, Option.bind_some]
    exact checkChanged_keeps filled' ring'

theorem networkClose_keeps {startTime : Int} (filled : cbt.Filled) (ring : cbt.liveness.RingBounded) :
    (cbt.circuitBuildTimesNetworkClose startTime).Filled ∧
      (cbt.circuitBuildTimesNetworkClose startTime).liveness.RingBounded := by
  unfold circuitBuildTimesNetworkClose
  simp only [scale_liveness]
  split
  · exact ⟨filled.same (SameTimes.scale ⟨rfl, rfl, rfl⟩), ring.1, ring.2⟩
  · refine ⟨filled.same (SameTimes.scale ⟨rfl, rfl, rfl⟩), ?_⟩
    rw [scale_liveness]
    exact ring

theorem countClose_keeps {disabled : Bool} {startTime : Int} (filled : cbt.Filled) (ring : cbt.liveness.RingBounded) :
    Keeps (cbt.circuitBuildTimesCountClose disabled startTime) := by
  obtain ⟨filled', ring'⟩ := @networkClose_keeps cbt startTime filled ring
  rw [circuitBuildTimesCountClose]
  split
  · exact ⟨cbt, rfl, filled, ring⟩
  · simp only
    split
    · exact ⟨_, rfl, filled', ring'⟩
    · obtain ⟨after, added, filled'', same⟩ := @Filled.addTime _ cbtBuildAbandoned filled'
      exact ⟨after, added, filled'', same ▸ ring'⟩

theorem step_keeps (filled : cbt.Filled) (ring : cbt.liveness.RingBounded) (e : Event) :
    ∃ after, cbt.step e = some after ∧ after.Filled ∧ (after.liveness.RingBounded ↔ Roomy cbt e) := by
  have of_keeps : ∀ result, Keeps result →
      ∃ after, result = some after ∧ after.Filled ∧ (after.liveness.RingBounded ↔ True) := by
    rintro result ⟨after, returned, filled', ring'⟩
    exact ⟨after, returned, filled', iff_of_true ring' trivial⟩
  cases e with
  | newConsensusParams disabled cbtrecentcount =>
      have positive := @recentCircuitCount_pos cbtrecentcount
      simp only [CircuitBuildTimes.step, circuitBuildTimesNewConsensusParams, Roomy]
      cases disabled with
      | true => exact ⟨_, rfl, filled.same ⟨rfl, rfl, rfl⟩, iff_of_true .free (by simp)⟩
      | false =>
          simp only [Bool.not_false, if_true, positive, forall_const]
          split
          · obtain ⟨liveness, reallocated, bounded⟩ := ring.reallocate positive
            rw [reallocated, Option.map_some]
            exact ⟨_, rfl, filled.same ⟨rfl, rfl, rfl⟩, bounded⟩
          · rename_i same
            refine ⟨_, rfl, filled, iff_of_true ring ?_⟩
            intro freed
            have none_left := ring.absent freed
            omega
  | circSuccess => exact of_keeps _ (circSuccess_keeps filled ring)
  | countTimeout disabled didOnehop cbtmaxtimeouts => exact of_keeps _ (countTimeout_keeps filled ring)
  | addTime btime =>
      obtain ⟨after, added, filled', same⟩ := @Filled.addTime cbt btime filled
      exact ⟨after, added, filled', iff_of_true (same ▸ ring) trivial⟩
  | countClose disabled startTime => exact of_keeps _ (countClose_keeps filled ring)
  | networkIsLive now => exact ⟨_, rfl, filled.same ⟨rfl, rfl, rfl⟩, iff_of_true ⟨ring.1, ring.2⟩ trivial⟩
  | reset => exact ⟨_, rfl, .reset cbt, iff_of_true ring trivial⟩

theorem init_filled {disabled : Bool} {cbtrecentcount : Option Int} :
    (circuitBuildTimesInit disabled cbtrecentcount).Filled where
  size := List.length_replicate
  used := used_replicate rfl (by decide)

theorem init_ring {disabled : Bool} {cbtrecentcount : Option Int} :
    (circuitBuildTimesInit disabled cbtrecentcount).liveness.RingBounded where
  allocated := by
    intro cells there
    cases disabled with
    | true => cases there
    | false =>
        obtain rfl := Option.some.inj there
        exact ⟨recentCircuitCount_pos, List.length_replicate, recentCircuitCount_pos,
          fun x mem => NetworkLiveness.flags_replicate mem⟩
  absent := by
    intro there
    cases disabled with
    | true => rfl
    | false => cases there

theorem filled_of_reach {disabled : Bool} {cbtrecentcount : Option Int}
    (reach : history.Reach Roomy (circuitBuildTimesInit disabled cbtrecentcount) cbt) :
    cbt.Filled ∧ cbt.liveness.RingBounded := by
  refine reach.invariant (I := fun cbt => cbt.Filled ∧ cbt.liveness.RingBounded) ⟨init_filled, init_ring⟩ ?_
  rintro s e t ⟨filled, ring⟩ roomy action
  obtain ⟨after, returned, filled', bounded⟩ := step_keeps filled ring e
  obtain rfl := Option.some.inj (action.symm.trans returned)
  exact ⟨filled', bounded.mpr roomy⟩

def offAndOn : List Event :=
  [.circSuccess, .circSuccess, .circSuccess, .newConsensusParams true none, .newConsensusParams false (some 3)]

end CircuitBuildTimes
end TorJet.Circuitstats
