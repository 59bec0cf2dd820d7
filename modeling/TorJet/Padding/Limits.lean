import Mathlib.Logic.Function.Basic
import TorJet.Base.Machine
import TorJet.Padding.Histogram

/-!
# Padding limits

The cells that a process and its padding machines have counted, and the limits that are checked before padding is
scheduled. The machines move, count and schedule in any order.
-/

namespace TorJet.Padding
open Base

/-- `circpad_machine_spec_t`, as far as it is read when cells are counted and padding is scheduled. -/
structure MachineSpec where
  states : List State
  maxPaddingPercent : Nat
  allowedPaddingCount : Nat
  deriving DecidableEq

def paddingMachineIsValid (machine : MachineSpec) : Bool := machine.states.all paddingMachineStateIsValid

def circpadStateEnd : Nat := 2 ^ 16 - 1

def circpadStateLengthInfinite : Nat := 2 ^ 64 - 1

/-- `circpad_machine_runtime_t`; `bins` is its mutable histogram, if there is one. -/
structure Info where
  machine : MachineSpec
  currentState : Nat
  bins : Option Runtime
  chosenBin : Nat
  stateLength : Nat
  paddingSent : Nat
  nonpaddingSent : Nat
  rttEstimateUsec : Nat
  paddingScheduledAtUsec : Nat
  isPaddingTimerScheduled : Bool
  deriving DecidableEq

namespace Info

def new (machine : MachineSpec) : Info :=
  { machine := machine
    currentState := 0
    bins := none
    chosenBin := 0
    stateLength := 0
    paddingSent := 0
    nonpaddingSent := 0
    rttEstimateUsec := 0
    paddingScheduledAtUsec := 0
    isPaddingTimerScheduled := false }

def circpadMachineCurrentState (mi : Info) : Option State :=
  if mi.currentState = circpadStateEnd then none else mi.machine.states[mi.currentState]?

def circpadMachineSetupTokens (mi : Info) : Info :=
  match mi.circpadMachineCurrentState with
  | none => { mi with bins := none }
  | some state =>
      if state.tokenRemoval = .none then { mi with bins := none }
      else { mi with bins := some ⟨state, mi.rttEstimateUsec, state.histogram, state.tokens_length⟩ }

def rescale (mi : Info) (counter : Nat) : Info :=
  if counter = 2 ^ 16 - 1 then
    { mi with paddingSent := mi.paddingSent / 2, nonpaddingSent := mi.nonpaddingSent / 2 }
  else mi

/-- `circpad_machine_count_padding_sent` without the global counter. -/
def circpadMachineCountPaddingSent (mi : Info) : Info :=
  let length :=
    if mi.stateLength ≠ circpadStateLengthInfinite ∧ ¬ mi.stateLength = 0 then mi.stateLength - 1 else mi.stateLength
  let sent := wrap 16 (mi.paddingSent + 1)
  let mi := { mi with stateLength := length, paddingSent := sent }.rescale sent
  { mi with bins := mi.bins.map fun bins => bins.take mi.chosenBin }

def circpadMachineUpdateStateLengthForNonpadding (mi : Info) : Info :=
  if mi.stateLength = circpadStateLengthInfinite then mi
  else
    match mi.circpadMachineCurrentState with
    | none => mi
    | some state =>
        if state.lengthIncludesNonpadding ∧ mi.stateLength > 0 then { mi with stateLength := mi.stateLength - 1 }
        else mi

def circpadMachineRemoveToken (mi : Info) (currentTime : Nat) : Info :=
  if mi.paddingScheduledAtUsec = 0 then mi
  else
    match mi.circpadMachineCurrentState with
    | none => mi
    | some state =>
        if state.tokenRemoval = .none then mi
        else
          let targetBinUsec := min (wsub 64 currentTime mi.paddingScheduledAtUsec) (circpadDelayInfinite - 1)
          { mi with
            paddingScheduledAtUsec := 0
            isPaddingTimerScheduled := false
            bins := mi.bins.map fun bins => bins.removeToken state.tokenRemoval targetBinUsec }

def circpadMachineCountNonpaddingSent (mi : Info) (currentTime : Nat) : Info :=
  let sent := wrap 16 (mi.nonpaddingSent + 1)
  let mi := { mi with nonpaddingSent := sent }.rescale sent
  mi.circpadMachineUpdateStateLengthForNonpadding.circpadMachineRemoveToken currentTime

end Info

structure Process where
  circpadPaddingDisabled : Bool
  circpadGlobalAllowedCells : Nat
  circpadGlobalMaxPaddingPercent : Nat
  circpadGlobalPaddingSent : Nat
  circpadGlobalNonpaddingSent : Nat
  infos : Nat → Option Info

structure Consensus where
  circpadPaddingDisabled : Option Int
  circpadGlobalAllowedCells : Option Int
  circpadGlobalMaxPaddingPct : Option Int

def networkstatusGetParam (value : Option Int) (default : Int) (lo hi : Nat) : Nat := clampTo lo hi (value.getD default)

/-- What a call of `circpad_machine_schedule_padding` finds outside the machine; `circpad_machine_sample_delay` gives
the delay, and with it the bin it has chosen. -/
structure Call where
  circuitPadding : Bool
  isParticipatingOnNetwork : Bool
  markedForClose : Bool
  now : Nat
  chosenBin : Nat
  inUsec : Nat

/-- Where a call of `circpad_machine_schedule_padding` ends. -/
inductive Outcome
  | disabled
  | dormant
  | ended
  | limited
  | infinite
  | lengthUp
  | sent
  | scheduled
  deriving DecidableEq, Repr

def Outcome.Pads (outcome : Outcome) : Prop := outcome = .sent ∨ outcome = .scheduled

def udiv (a b : Nat) : Option Nat := if b = 0 then none else some (a / b)

namespace Process

def initial : Process := ⟨false, 0, 0, 0, 0, fun _ => none⟩

def set (s : Process) (i : Nat) (mi : Info) : Process := { s with infos := Function.update s.infos i (some mi) }

def circpadNewConsensusParams (s : Process) (ns : Consensus) : Process :=
  { s with
    circpadPaddingDisabled := networkstatusGetParam ns.circpadPaddingDisabled 0 0 1 ≠ 0
    circpadGlobalAllowedCells := networkstatusGetParam ns.circpadGlobalAllowedCells 0 0 (2 ^ 16 - 2)
    circpadGlobalMaxPaddingPercent := networkstatusGetParam ns.circpadGlobalMaxPaddingPct 0 0 100 }

/-- `circpad_send_padding_cell_for_callback`, up to the event of the cell. -/
def circpadSendPaddingCellForCallback (s : Process) (i : Nat) (mi : Info) (markedForClose : Bool) : Process :=
  let mi := { mi with paddingScheduledAtUsec := 0, isPaddingTimerScheduled := false }
  if markedForClose then s.set i mi
  else
    { s.set i mi.circpadMachineCountPaddingSent with
      circpadGlobalPaddingSent := wrap 64 (s.circpadGlobalPaddingSent + 1) }

/-- The start of `circpad_cell_event_nonpadding_sent`, before the machines of the circuit count the cell. -/
def circpadCellEventNonpaddingSent (s : Process) : Process :=
  { s with circpadGlobalNonpaddingSent := wrap 64 (s.circpadGlobalNonpaddingSent + 1) }

def reachedOwnLimit (mi : Info) : Option Bool :=
  if mi.machine.maxPaddingPercent ≠ 0 ∧ mi.paddingSent ≥ mi.machine.allowedPaddingCount then
    let totalCells := wrap 32 (mi.paddingSent + mi.nonpaddingSent)
    (udiv (wrap 32 (100 * mi.paddingSent)) totalCells).map fun percent => percent > mi.machine.maxPaddingPercent
  else some false

def reachedGlobalLimit (s : Process) : Option Bool :=
  if s.circpadGlobalMaxPaddingPercent ≠ 0 ∧ s.circpadGlobalPaddingSent ≥ s.circpadGlobalAllowedCells then
    let totalCells := wrap 64 (s.circpadGlobalPaddingSent + s.circpadGlobalNonpaddingSent)
    (udiv (wrap 64 (100 * s.circpadGlobalPaddingSent)) totalCells).map fun percent =>
      percent > s.circpadGlobalMaxPaddingPercent
  else some false

/-- `circpad_machine_reached_padding_limit`; the process is lost in a division by zero. -/
def circpadMachineReachedPaddingLimit (s : Process) (mi : Info) : Option Bool :=
  (reachedOwnLimit mi).bind fun reached => if reached then some true else s.reachedGlobalLimit

/-- The rest of `circpad_machine_schedule_padding`, for a machine that has not reached its limits. -/
def scheduleDelay (s : Process) (i : Nat) (mi : Info) (call : Call) : Process × Outcome :=
  if call.inUsec = circpadDelayInfinite then
    -- a choice of the infinity bin takes its token at once
    (s.set i { mi with bins := mi.bins.map fun bins => bins.take call.chosenBin }, .infinite)
  else if mi.stateLength = 0 then (s.set i mi, .lengthUp)
  else if call.inUsec ≤ 0 then (s.circpadSendPaddingCellForCallback i mi call.markedForClose, .sent)
  else (s.set i { mi with isPaddingTimerScheduled := true }, .scheduled)

/-- `circpad_machine_schedule_padding`, up to the events it raises. -/
def circpadMachineSchedulePadding (s : Process) (i : Nat) (mi : Info) (call : Call) : Option (Process × Outcome) :=
  if s.circpadPaddingDisabled || !call.circuitPadding then some (s, .disabled)
  else if !call.isParticipatingOnNetwork then some (s, .dormant)
  else if mi.currentState = circpadStateEnd then some (s, .ended)
  else
    (s.circpadMachineReachedPaddingLimit mi).map fun reached =>
      if reached then (s, .limited)
      else
        s.scheduleDelay i
          { mi with
            isPaddingTimerScheduled := false
            chosenBin := if mi.bins.isSome then call.chosenBin else mi.chosenBin
            paddingScheduledAtUsec := if mi.bins.isSome then call.now else 1 }
          call

end Process

inductive Event
  | newConsensusParams (ns : Consensus)
  | setup (i : Nat) (machine : MachineSpec)
  | free (i : Nat)
  | transition (i state length : Nat)
  | estimateRtt (i rtt : Nat)
  | nonpaddingSent
  | countNonpadding (i currentTime : Nat)
  | timer (i : Nat) (markedForClose : Bool)
  | schedule (i : Nat) (call : Call)

namespace Process

def step (s : Process) : Event → Option Process
  | .newConsensusParams ns => some (s.circpadNewConsensusParams ns)
  | .setup i machine =>
      if paddingMachineIsValid machine ∧ s.infos i = none then some (s.set i (.new machine)) else none
  | .free i => some { s with infos := Function.update s.infos i none }
  | .transition i state length =>
      (s.infos i).map fun mi =>
        s.set i { { mi with currentState := state }.circpadMachineSetupTokens with stateLength := length }
  | .estimateRtt i rtt =>
      (s.infos i).map fun mi =>
        s.set i { mi with rttEstimateUsec := rtt, bins := mi.bins.map fun bins => { bins with rttEstimateUsec := rtt } }
  | .nonpaddingSent => some s.circpadCellEventNonpaddingSent
  | .countNonpadding i currentTime =>
      (s.infos i).map fun mi => s.set i (mi.circpadMachineCountNonpaddingSent currentTime)
  | .timer i markedForClose => (s.infos i).map fun mi => s.circpadSendPaddingCellForCallback i mi markedForClose
  | .schedule i call => (s.infos i).bind fun mi => (s.circpadMachineSchedulePadding i mi call).map Prod.fst

end Process

def padding : Machine Process Event := ⟨Process.step⟩

end TorJet.Padding

/-!
## The limits hold

The counters stay small, so that no percentage overflows, and a machine that has counted a cell never loses all of
what it counted. The limits are computed and respected exactly where something was counted.
-/

namespace TorJet.Padding
open Base

namespace Info

def counters (mi : Info) : Nat × Nat := (mi.paddingSent, mi.nonpaddingSent)

def Small (mi : Info) : Prop := mi.paddingSent < 2 ^ 16 - 1 ∧ mi.nonpaddingSent < 2 ^ 16 - 1

def Counted (mi : Info) : Prop := mi.paddingSent + mi.nonpaddingSent ≠ 0

def Same (mi mi' : Info) : Prop := mi'.machine = mi.machine ∧ mi'.counters = mi.counters

def halve (counter : Nat) (c : Nat × Nat) : Nat × Nat := if counter = 2 ^ 16 - 1 then (c.1 / 2, c.2 / 2) else c

def paddingCounted (c : Nat × Nat) : Nat × Nat := halve (wrap 16 (c.1 + 1)) (wrap 16 (c.1 + 1), c.2)

def nonpaddingCounted (c : Nat × Nat) : Nat × Nat := halve (wrap 16 (c.2 + 1)) (c.1, wrap 16 (c.2 + 1))

def Counts (mi mi' : Info) : Prop :=
  mi'.machine = mi.machine ∧
    (mi'.counters = mi.counters ∨ mi'.counters = paddingCounted mi.counters ∨
      mi'.counters = nonpaddingCounted mi.counters)

variable {mi mi' : Info} {now : Nat}

theorem setupTokens_same : mi.Same mi.circpadMachineSetupTokens := by
  unfold circpadMachineSetupTokens
  split
  · exact ⟨rfl, rfl⟩
  · split <;> exact ⟨rfl, rfl⟩

theorem updateStateLength_same : mi.Same mi.circpadMachineUpdateStateLengthForNonpadding := by
  unfold circpadMachineUpdateStateLengthForNonpadding
  split
  · exact ⟨rfl, rfl⟩
  · split
    · exact ⟨rfl, rfl⟩
    · split <;> exact ⟨rfl, rfl⟩

theorem removeToken_same : mi.Same (mi.circpadMachineRemoveToken now) := by
  unfold circpadMachineRemoveToken
  split
  · exact ⟨rfl, rfl⟩
  · split
    · exact ⟨rfl, rfl⟩
    · split <;> exact ⟨rfl, rfl⟩

theorem Same.then_same {last : Info} (first : mi.Same mi') (second : mi'.Same last) : mi.Same last :=
  ⟨second.1.trans first.1, second.2.trans first.2⟩

theorem rescale_machine {counter : Nat} : (mi.rescale counter).machine = mi.machine := by
  unfold rescale
  split <;> rfl

theorem rescale_counters {counter : Nat} : (mi.rescale counter).counters = halve counter mi.counters := by
  unfold rescale halve
  split <;> rfl

theorem countPadding_counts : mi.Counts mi.circpadMachineCountPaddingSent := by
  refine ⟨rescale_machine, .inr (.inl ?_)⟩
  exact @rescale_counters { mi with stateLength := _, paddingSent := wrap 16 (mi.paddingSent + 1) } _

theorem countNonpadding_counts : mi.Counts (mi.circpadMachineCountNonpaddingSent now) := by
  have rescaled : ({ mi with nonpaddingSent := wrap 16 (mi.nonpaddingSent + 1) }.rescale
      (wrap 16 (mi.nonpaddingSent + 1))).Same (mi.circpadMachineCountNonpaddingSent now) :=
    updateStateLength_same.then_same removeToken_same
  refine ⟨rescaled.1.trans rescale_machine, .inr (.inr ?_)⟩
  rw [rescaled.2, rescale_counters]
  rfl

theorem paddingCounted_bounds {p n : Nat} (first : p < 2 ^ 16 - 1) (second : n < 2 ^ 16 - 1) :
    (paddingCounted (p, n)).1 < 2 ^ 16 - 1 ∧ (paddingCounted (p, n)).2 < 2 ^ 16 - 1 ∧
      (paddingCounted (p, n)).1 + (paddingCounted (p, n)).2 ≠ 0 := by
  have up : wrap 16 (p + 1) = p + 1 := wrap_of_lt (by omega)
  simp only [paddingCounted, halve, up]
  split <;> simp only <;> omega

theorem nonpaddingCounted_bounds {p n : Nat} (first : p < 2 ^ 16 - 1) (second : n < 2 ^ 16 - 1) :
    (nonpaddingCounted (p, n)).1 < 2 ^ 16 - 1 ∧ (nonpaddingCounted (p, n)).2 < 2 ^ 16 - 1 ∧
      (nonpaddingCounted (p, n)).1 + (nonpaddingCounted (p, n)).2 ≠ 0 := by
  have up : wrap 16 (n + 1) = n + 1 := wrap_of_lt (by omega)
  simp only [nonpaddingCounted, halve, up]
  split <;> simp only <;> omega

theorem Counts.small (counts : mi.Counts mi') (small : mi.Small) : mi'.Small := by
  rcases counts.2 with same | padding | nonpadding
  · have both := Prod.ext_iff.mp same
    exact ⟨both.1.trans_lt small.1, both.2.trans_lt small.2⟩
  · have bounds := paddingCounted_bounds small.1 small.2
    have both := Prod.ext_iff.mp padding
    exact ⟨both.1.trans_lt bounds.1, both.2.trans_lt bounds.2.1⟩
  · have bounds := nonpaddingCounted_bounds small.1 small.2
    have both := Prod.ext_iff.mp nonpadding
    exact ⟨both.1.trans_lt bounds.1, both.2.trans_lt bounds.2.1⟩

end Info

namespace Process
variable {s t : Process} {i j : Nat} {mi mi' : Info} {call : Call} {outcome : Outcome} {e : Event}

def Moves (s t : Process) : Prop :=
  ∀ i mi', t.infos i = some mi' →
    (s.infos i = none ∧ ∃ machine, paddingMachineIsValid machine = true ∧ mi' = .new machine) ∨
      ∃ mi, s.infos i = some mi ∧ mi.Counts mi'

theorem set_infos : (s.set i mi).infos = Function.update s.infos i (some mi) := rfl

theorem Moves.set (here : s.infos i = some mi) (counts : mi.Counts mi') (same : t.infos = (s.set i mi').infos) :
    s.Moves t := by
  intro j last there
  rw [same, set_infos] at there
  by_cases at_i : j = i
  · subst at_i
    rw [Function.update_self] at there
    obtain rfl := Option.some.inj there
    exact .inr ⟨mi, here, counts⟩
  · rw [Function.update_of_ne at_i] at there
    exact .inr ⟨last, there, rfl, .inl rfl⟩

theorem Moves.same (equal : t.infos = s.infos) : s.Moves t := by
  intro i mi' there
  rw [equal] at there
  exact .inr ⟨mi', there, rfl, .inl rfl⟩

theorem Moves.set_same (here : s.infos i = some mi) (machine : mi'.machine = mi.machine)
    (counters : mi'.counters = mi.counters) : s.Moves (s.set i mi') :=
  .set here ⟨machine, .inl counters⟩ rfl

theorem sendPadding_moves {marked : Bool} (here : s.infos i = some mi) (same : mi.Same mi') :
    s.Moves (s.circpadSendPaddingCellForCallback i mi' marked) := by
  rw [circpadSendPaddingCellForCallback]
  split
  · exact .set_same here same.1 same.2
  · refine .set here ?_ rfl
    have counts := @Info.countPadding_counts { mi' with paddingScheduledAtUsec := 0, isPaddingTimerScheduled := false }
    refine ⟨counts.1.trans same.1, ?_⟩
    have before : Info.counters { mi' with paddingScheduledAtUsec := 0, isPaddingTimerScheduled := false } =
      mi.counters := same.2
    rw [← before]
    exact counts.2

theorem scheduleDelay_moves (here : s.infos i = some mi) (same : mi.Same mi') :
    s.Moves (s.scheduleDelay i mi' call).1 := by
  rw [scheduleDelay]
  split
  · exact .set_same here same.1 same.2
  · split
    · exact .set_same here same.1 same.2
    · split
      · exact sendPadding_moves here same
      · exact .set_same here same.1 same.2

theorem schedule_moves (here : s.infos i = some mi)
    (called : s.circpadMachineSchedulePadding i mi call = some (t, outcome)) : s.Moves t := by
  rw [circpadMachineSchedulePadding] at called
  split at called
  · obtain ⟨rfl, -⟩ := Prod.ext_iff.mp (Option.some.inj called)
    exact .same rfl
  · split at called
    · obtain ⟨rfl, -⟩ := Prod.ext_iff.mp (Option.some.inj called)
      exact .same rfl
    · split at called
      · obtain ⟨rfl, -⟩ := Prod.ext_iff.mp (Option.some.inj called)
        exact .same rfl
      · obtain ⟨reached, -, result⟩ := Option.map_eq_some_iff.mp called
        obtain ⟨rfl, -⟩ := Prod.ext_iff.mp result
        split
        · exact .same rfl
        · exact scheduleDelay_moves here ⟨rfl, rfl⟩

theorem step_moves (action : s.step e = some t) : s.Moves t := by
  cases e with
  | newConsensusParams ns =>
      obtain rfl := Option.some.inj action
      exact .same rfl
  | setup i machine =>
      rw [step] at action
      split at action
      · rename_i checked
        obtain rfl := Option.some.inj action
        intro j last there
        rw [set_infos] at there
        by_cases at_i : j = i
        · subst at_i
          rw [Function.update_self] at there
          exact .inl ⟨checked.2, machine, checked.1, (Option.some.inj there).symm⟩
        · rw [Function.update_of_ne at_i] at there
          exact .inr ⟨last, there, rfl, .inl rfl⟩
      · cases action
  | free i =>
      obtain rfl := Option.some.inj action
      intro j last there
      simp only at there
      by_cases at_i : j = i
      · subst at_i
        rw [Function.update_self] at there
        cases there
      · rw [Function.update_of_ne at_i] at there
        exact .inr ⟨last, there, rfl, .inl rfl⟩
  | transition i state length =>
      obtain ⟨mi, here, rfl⟩ := Option.map_eq_some_iff.mp action
      have same := @Info.setupTokens_same { mi with currentState := state }
      exact .set_same here same.1 same.2
  | estimateRtt i rtt =>
      obtain ⟨mi, here, rfl⟩ := Option.map_eq_some_iff.mp action
      exact .set_same here rfl rfl
  | nonpaddingSent =>
      obtain rfl := Option.some.inj action
      exact .same rfl
  | countNonpadding i now =>
      obtain ⟨mi, here, rfl⟩ := Option.map_eq_some_iff.mp action
      exact .set here Info.countNonpadding_counts rfl
  | timer i marked =>
      obtain ⟨mi, here, rfl⟩ := Option.map_eq_some_iff.mp action
      exact sendPadding_moves here ⟨rfl, rfl⟩
  | schedule i call =>
      obtain ⟨mi, here, called⟩ := Option.bind_eq_some_iff.mp action
      obtain ⟨⟨after, outcome⟩, found, rfl⟩ := Option.map_eq_some_iff.mp called
      exact schedule_moves here found

structure Sound (s : Process) : Prop where
  small : ∀ i mi, s.infos i = some mi → mi.Small
  valid : ∀ i mi, s.infos i = some mi → paddingMachineIsValid mi.machine = true

theorem Sound.step (sound : s.Sound) (action : s.step e = some t) : t.Sound where
  small := by
    intro i mi' there
    rcases step_moves action i mi' there with ⟨-, machine, -, rfl⟩ | ⟨mi, here, counts⟩
    · exact ⟨Nat.pos_of_ne_zero (by decide), Nat.pos_of_ne_zero (by decide)⟩
    · exact counts.small (sound.small i mi here)
  valid := by
    intro i mi' there
    rcases step_moves action i mi' there with ⟨-, machine, valid, rfl⟩ | ⟨mi, here, counts⟩
    · exact valid
    · rw [counts.1]
      exact sound.valid i mi here

theorem sound_of_reach (reach : padding.Reach (fun _ _ => True) initial s) : s.Sound := by
  refine reach.invariant ⟨?_, ?_⟩ fun s e t sound _ action => Sound.step sound action
  · intro i mi here
    cases here
  · intro i mi here
    cases here

theorem udiv_eq_none {a b : Nat} : udiv a b = none ↔ b = 0 := by
  unfold udiv
  split <;> simp_all

theorem reachedOwnLimit_eq (small : mi.Small) (checked : mi.machine.maxPaddingPercent ≠ 0 ∧
      mi.paddingSent ≥ mi.machine.allowedPaddingCount) :
    reachedOwnLimit mi = (udiv (100 * mi.paddingSent) (mi.paddingSent + mi.nonpaddingSent)).map
      fun percent => decide (percent > mi.machine.maxPaddingPercent) := by
  obtain ⟨first, second⟩ := small
  rw [reachedOwnLimit, if_pos checked, wrap_of_lt (by omega), wrap_of_lt (by omega)]

theorem reachedOwnLimit_over (small : mi.Small) (limited : mi.machine.maxPaddingPercent ≠ 0)
    (allowed : mi.paddingSent ≥ mi.machine.allowedPaddingCount)
    (over_it : (mi.machine.maxPaddingPercent + 1) * (mi.paddingSent + mi.nonpaddingSent) < 100 * mi.paddingSent) :
    reachedOwnLimit mi = some true := by
  have positive : 0 < mi.paddingSent + mi.nonpaddingSent := by
    by_contra zero
    have none_sent : mi.paddingSent = 0 := by omega
    rw [none_sent] at over_it
    omega
  rw [reachedOwnLimit_eq small ⟨limited, allowed⟩, udiv, if_neg (by omega), Option.map_some]
  have quotient := (Nat.le_div_iff_mul_le positive).mpr over_it.le
  rw [decide_eq_true (by omega)]

def OverOwnLimit (mi : Info) : Prop :=
  mi.machine.maxPaddingPercent ≠ 0 ∧ mi.machine.allowedPaddingCount ≤ mi.paddingSent ∧
    mi.machine.maxPaddingPercent < 100 * mi.paddingSent / (mi.paddingSent + mi.nonpaddingSent)

structure SomethingCounted (s : Process) (mi : Info) : Prop where
  own : mi.machine.maxPaddingPercent ≠ 0 → mi.machine.allowedPaddingCount ≤ mi.paddingSent → mi.Counted
  global : ¬ OverOwnLimit mi → s.circpadGlobalMaxPaddingPercent ≠ 0 →
    s.circpadGlobalAllowedCells ≤ s.circpadGlobalPaddingSent →
    wrap 64 (s.circpadGlobalPaddingSent + s.circpadGlobalNonpaddingSent) ≠ 0

structure Limited (s : Process) (i : Nat) (mi : Info) : Prop where
  divides : s.circpadMachineReachedPaddingLimit mi ≠ none
  respects : mi.machine.maxPaddingPercent ≠ 0 → mi.machine.allowedPaddingCount ≤ mi.paddingSent →
    (mi.machine.maxPaddingPercent + 1) * (mi.paddingSent + mi.nonpaddingSent) < 100 * mi.paddingSent →
    ∀ call t outcome, s.circpadMachineSchedulePadding i mi call = some (t, outcome) → ¬ outcome.Pads

theorem reachedGlobalLimit_eq_none : s.reachedGlobalLimit = none ↔ s.circpadGlobalMaxPaddingPercent ≠ 0 ∧
    s.circpadGlobalAllowedCells ≤ s.circpadGlobalPaddingSent ∧
    wrap 64 (s.circpadGlobalPaddingSent + s.circpadGlobalNonpaddingSent) = 0 := by
  unfold reachedGlobalLimit
  split
  · rename_i checked
    rw [Option.map_eq_none_iff, udiv_eq_none]
    exact ⟨fun zero => ⟨checked.1, checked.2, zero⟩, fun both => both.2.2⟩
  · rename_i unchecked
    simp only [reduceCtorEq, false_iff]
    exact fun both => unchecked ⟨both.1, both.2.1⟩

theorem reachedOwnLimit_cases (small : mi.Small) :
    reachedOwnLimit mi = none ∧ mi.machine.maxPaddingPercent ≠ 0 ∧
        mi.machine.allowedPaddingCount ≤ mi.paddingSent ∧ ¬ mi.Counted ∨
      (mi.machine.maxPaddingPercent ≠ 0 → mi.machine.allowedPaddingCount ≤ mi.paddingSent → mi.Counted) ∧
        (reachedOwnLimit mi = some true ∧ OverOwnLimit mi ∨ reachedOwnLimit mi = some false ∧ ¬ OverOwnLimit mi) := by
  by_cases checked : mi.machine.maxPaddingPercent ≠ 0 ∧ mi.paddingSent ≥ mi.machine.allowedPaddingCount
  · rw [reachedOwnLimit_eq small checked, udiv]
    by_cases zero : mi.paddingSent + mi.nonpaddingSent = 0
    · rw [if_pos zero]
      exact .inl ⟨rfl, checked.1, checked.2, fun counted => counted zero⟩
    · rw [if_neg zero, Option.map_some]
      refine .inr ⟨fun _ _ => zero, ?_⟩
      by_cases above : mi.machine.maxPaddingPercent < 100 * mi.paddingSent / (mi.paddingSent + mi.nonpaddingSent)
      · exact .inl ⟨by rw [decide_eq_true above], checked.1, checked.2, above⟩
      · exact .inr ⟨by rw [decide_eq_false above], fun reached => above reached.2.2⟩
  · rw [reachedOwnLimit, if_neg checked]
    refine .inr ⟨fun limited allowed => absurd ⟨limited, allowed⟩ checked, .inr ⟨rfl, ?_⟩⟩
    exact fun reached => checked ⟨reached.1, reached.2.1⟩

theorem reachedPaddingLimit_divides (small : mi.Small) :
    s.circpadMachineReachedPaddingLimit mi ≠ none ↔ s.SomethingCounted mi := by
  rw [circpadMachineReachedPaddingLimit]
  rcases reachedOwnLimit_cases small with ⟨own, limited, allowed, zero⟩ | ⟨counted, ⟨own, reached⟩ | ⟨own, below⟩⟩
  · rw [own, Option.bind_none]
    exact iff_of_false (fun h => h rfl) fun something => zero (something.own limited allowed)
  · rw [own, Option.bind_some, if_pos rfl]
    exact iff_of_true (by simp) ⟨counted, fun below => absurd reached below⟩
  · rw [own, Option.bind_some, if_neg Bool.false_ne_true, ne_eq, reachedGlobalLimit_eq_none]
    constructor
    · intro divides
      exact ⟨counted, fun _ limited allowed zero => divides ⟨limited, allowed, zero⟩⟩
    · rintro something ⟨limited, allowed, zero⟩
      exact something.global below limited allowed zero

def drawn : State where
  histogramLen := 0
  histogram := []
  histogramEdges := []
  histogramTotalTokens := 0
  lengthIncludesNonpadding := false
  useRttEstimate := false
  tokenRemoval := .none
  small := by decide
  tokens_length := rfl
  edges_length := rfl
  edges_fit := by simp

def strict : MachineSpec := ⟨[drawn, drawn], 50, 0⟩

def startArrives : List Event := [.setup 0 strict, .transition 0 1 circpadStateLengthInfinite]

end Process
end TorJet.Padding
