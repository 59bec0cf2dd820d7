import Mathlib.Algebra.Order.Ring.Int
import TorJet.Base.Machine

/-!
# Download statuses

When a directory object is tried again: the counters and the back-off of a `download_status_t`. An addition that leaves
its type and an assertion that fails give no status.
-/

namespace TorJet.Dirclient
open Base

/-- `INT_MAX` and `TIME_MAX` -/
def intMax : Int := 2 ^ 31 - 1

def timeMax : Int := 2 ^ 63 - 1

/-- A `time_t` -/
abbrev Time : Type := { t : Int // -2 ^ 63 ≤ t ∧ t ≤ timeMax }

/-- An `int` that is not negative -/
abbrev Delay : Type := { d : Int // 0 ≤ d ∧ d ≤ intMax }

inductive Schedule
  | generic
  | consensus
  | bridge
  deriving DecidableEq

inductive IncrementOn
  | failure
  | attempt
  deriving DecidableEq

structure DownloadStatus where
  nextAttemptAt : Int
  nDownloadFailures : UInt8
  nDownloadAttempts : UInt8
  schedule : Schedule
  wantAuthority : Bool
  incrementOn : IncrementOn
  lastBackoffPosition : UInt8
  lastDelayUsed : Int
  deriving DecidableEq

structure Env where
  testingServerDownloadInitialDelay : Delay
  testingClientDownloadInitialDelay : Delay
  testingServerConsensusDownloadInitialDelay : Delay
  clientBootstrapConsensusAuthorityOnlyDownloadInitialDelay : Delay
  clientBootstrapConsensusAuthorityDownloadInitialDelay : Delay
  clientBootstrapConsensusFallbackDownloadInitialDelay : Delay
  testingClientConsensusDownloadInitialDelay : Delay
  testingBridgeBootstrapDownloadInitialDelay : Delay
  dirServerMode : Bool
  canUseMultipleDirectories : Bool
  isBootstrapping : Bool
  canUseExtraFallbacks : Bool
  time : Time

def findDlMinDelay (dls : DownloadStatus) (env : Env) : Delay :=
  match dls.schedule with
  | .generic =>
      if env.dirServerMode then env.testingServerDownloadInitialDelay else env.testingClientDownloadInitialDelay
  | .consensus =>
      if !env.canUseMultipleDirectories then env.testingServerConsensusDownloadInitialDelay
      else if env.isBootstrapping then
        if !env.canUseExtraFallbacks then env.clientBootstrapConsensusAuthorityOnlyDownloadInitialDelay
        else if dls.wantAuthority then env.clientBootstrapConsensusAuthorityDownloadInitialDelay
        else env.clientBootstrapConsensusFallbackDownloadInitialDelay
      else env.testingClientConsensusDownloadInitialDelay
  | .bridge => env.testingBridgeBootstrapDownloadInitialDelay

def checked (low high : Int) (sum : Int) : Option Int := if low ≤ sum ∧ sum ≤ high then some sum else none

def nextRandomExponentialDelayRange (delay baseDelay : Int) : Option (Int × Int) := do
  let delayTimes3 := if delay < intMax / 3 then delay * 3 else intMax
  if baseDelay < delayTimes3 then some (baseDelay, delayTimes3)
  else
    let high ← checked (-2 ^ 31) intMax (baseDelay + 1)
    some (baseDelay, high)

/-- `crypto_rand_int_range`, with the choice given -/
def cryptoRandIntRange (choice : Nat) (min max : Int) : Option Int :=
  if min < max ∧ max ≤ intMax then some (min + choice % (max - min)) else none

def nextRandomExponentialDelay (choice : Nat) (delay baseDelay : Int) : Option Int := do
  let delay := if delay < 0 then 0 else delay
  let baseDelay := if baseDelay < 1 then 1 else baseDelay
  let (lowBound, highBound) ← nextRandomExponentialDelayRange delay baseDelay
  cryptoRandIntRange choice lowBound highBound

/-- The loop of `download_status_schedule_get_delay`, over so many positions. -/
def backOff (choices : Nat → Nat) (minDelay : Int) : Nat → Int → Option Int
  | 0, delay => some delay
  | n + 1, delay => do
      let delay ← nextRandomExponentialDelay (choices n) delay minDelay
      backOff choices minDelay n delay

def DownloadStatus.position (dls : DownloadStatus) : UInt8 :=
  match dls.incrementOn with
  | .attempt => dls.nDownloadAttempts
  | .failure => dls.nDownloadFailures

structure Outcome where
  status : DownloadStatus
  delay : Option Int
  missedReset : Bool
  answer : Int
  deriving DecidableEq

/-- `download_status_schedule_get_delay`: the status, the delay, and whether a reset was missed -/
def downloadStatusScheduleGetDelay (dls : DownloadStatus) (minDelay : Int) (now : Int) (choices : Nat → Nat) :
    Option (DownloadStatus × Int × Bool) := do
  if minDelay < 0 then none
  else
    let position := dls.position
    let missed : Bool := position < dls.lastBackoffPosition
    let dls := if missed then { dls with lastBackoffPosition := 0, lastDelayUsed := 0 } else dls
    let delay ←
      (if 0 < position then
        backOff choices minDelay (position.toNat - dls.lastBackoffPosition.toNat) dls.lastDelayUsed
      else some minDelay)
    let delay := if delay < minDelay then minDelay else delay
    let dls := { dls with lastBackoffPosition := position, lastDelayUsed := delay }
    if delay < 0 then none
    else
      let nextAttemptAt := if delay < intMax ∧ now ≤ timeMax - delay then now + delay else timeMax
      some ({ dls with nextAttemptAt }, delay, missed)

def impossibleToDownload : UInt8 := 255

def initialDelayFromNow (dls : DownloadStatus) (env : Env) : Option Int :=
  checked (-2 ^ 63) timeMax (env.time + findDlMinDelay dls env)

def downloadStatusReset (dls : DownloadStatus) (env : Env) : Option DownloadStatus :=
  if dls.nDownloadFailures = impossibleToDownload ∨ dls.nDownloadAttempts = impossibleToDownload then some dls
  else do
    let dls := { dls with nDownloadFailures := 0, nDownloadAttempts := 0 }
    let nextAttemptAt ← initialDelayFromNow dls env
    some { dls with nextAttemptAt, lastBackoffPosition := 0, lastDelayUsed := 0 }

def resetBeforeUse (dls : DownloadStatus) (env : Env) : Option DownloadStatus :=
  if dls.nextAttemptAt = 0 then downloadStatusReset dls env else some dls

def downloadStatusGetNextAttemptAt (dls : DownloadStatus) (env : Env) : Option Int :=
  if dls.nextAttemptAt = 0 then initialDelayFromNow dls env else some dls.nextAttemptAt

def countUp (n : UInt8) : UInt8 := if n < impossibleToDownload - 1 then n + 1 else n

def scheduleNext (dls : DownloadStatus) (env : Env) (now : Int) (choices : Nat → Nat) : Option Outcome := do
  let (dls, delay, missed) ← downloadStatusScheduleGetDelay dls (findDlMinDelay dls env) now choices
  let next ← downloadStatusGetNextAttemptAt dls env
  some ⟨dls, some delay, missed, next⟩

def downloadStatusIncrementFailure (dls : DownloadStatus) (env : Env) (now : Int) (choices : Nat → Nat) :
    Option Outcome := do
  let dls ← resetBeforeUse dls env
  let dls := { dls with nDownloadFailures := countUp dls.nDownloadFailures }
  match dls.incrementOn with
  | .failure =>
      let dls := { dls with nDownloadAttempts := countUp dls.nDownloadAttempts }
      scheduleNext dls env now choices
  | .attempt =>
      -- the line that is logged has the time of the next attempt
      let _ ← downloadStatusGetNextAttemptAt dls env
      some ⟨dls, none, false, timeMax⟩

def downloadStatusIncrementAttempt (dls : DownloadStatus) (env : Env) (now : Int) (choices : Nat → Nat) :
    Option Outcome := do
  let dls ← resetBeforeUse dls env
  match dls.incrementOn with
  | .failure => some ⟨dls, none, false, timeMax⟩
  | .attempt =>
      let dls := { dls with nDownloadAttempts := countUp dls.nDownloadAttempts }
      scheduleNext dls env now choices

def downloadStatusIsReady (dls : DownloadStatus) (env : Env) (now : Int) : Option Outcome := do
  let dls ← resetBeforeUse dls env
  let next ← downloadStatusGetNextAttemptAt dls env
  some ⟨dls, none, false, if next ≤ now then 1 else 0⟩

def downloadStatusMarkImpossible (dl : DownloadStatus) : DownloadStatus :=
  { dl with nDownloadFailures := impossibleToDownload, nDownloadAttempts := impossibleToDownload }

/-! ## Runs -/

inductive Call
  | incrementFailure (now : Time)
  | incrementAttempt (now : Time)
  | reset
  | isReady (now : Time)
  | markImpossible

structure Event where
  call : Call
  env : Env
  choices : Nat → Nat

def DownloadStatus.call (dls : DownloadStatus) (e : Event) : Option Outcome :=
  match e.call with
  | .incrementFailure now => downloadStatusIncrementFailure dls e.env now e.choices
  | .incrementAttempt now => downloadStatusIncrementAttempt dls e.env now e.choices
  | .reset => (downloadStatusReset dls e.env).map fun dls => ⟨dls, none, false, 0⟩
  | .isReady now => downloadStatusIsReady dls e.env now
  | .markImpossible => some ⟨downloadStatusMarkImpossible dls, none, false, 0⟩

structure Tracked where
  status : DownloadStatus
  marked : Bool

def Event.marks (e : Event) : Bool :=
  match e.call with
  | .markImpossible => true
  | _ => false

def tracked : Machine Tracked Event where
  step s e := (s.status.call e).map fun out => ⟨out.status, s.marked || e.marks⟩

def Event.notedAt (e : Event) : Option Time :=
  match e.call with
  | .incrementFailure now => some now
  | .incrementAttempt now => some now
  | _ => none

def Event.schedules (e : Event) (dls : DownloadStatus) : Bool :=
  match e.call with
  | .incrementFailure _ => dls.incrementOn = .failure
  | .incrementAttempt _ => dls.incrementOn = .attempt
  | _ => false

structure Right (s : Tracked) (e : Event) (out : Outcome) : Prop where
  notMissed : out.missedReset = false
  delay : ∀ d ∈ out.delay, (findDlMinDelay s.status e.env : Int) ≤ d
  noted : ∀ now ∈ e.notedAt, (now : Int) ≤ out.status.nextAttemptAt
  impossible : s.marked = true → out.delay = none ∧ ∀ now, e.call = .isReady now → out.answer = 0

def DownloadStatus.dueAt (dls : DownloadStatus) (env : Env) : Int :=
  if dls.nextAttemptAt = 0 then env.time + findDlMinDelay dls env else dls.nextAttemptAt

def DownloadStatus.IsImpossible (dls : DownloadStatus) : Prop :=
  dls.nDownloadFailures = impossibleToDownload ∨ dls.nDownloadAttempts = impossibleToDownload

instance (dls : DownloadStatus) : Decidable dls.IsImpossible := inferInstanceAs (Decidable (_ ∨ _))

def DownloadStatus.setAt (dls : DownloadStatus) (env : Env) : Int :=
  if dls.nextAttemptAt = 0 ∧ ¬ dls.IsImpossible then env.time + findDlMinDelay dls env else dls.nextAttemptAt

structure Meets (s : Tracked) (e : Event) : Prop where
  clock : s.status.nextAttemptAt = 0 ∨ e.call = .reset ∨ (∃ now ∈ e.notedAt, (now : Int) ≤ 0) →
    (e.env.time : Int) + findDlMinDelay s.status e.env ≤ timeMax
  minDelay : e.schedules s.status = true → (findDlMinDelay s.status e.env : Int) < intMax
  other : ∀ now ∈ e.notedAt, e.schedules s.status = false → (now : Int) ≤ s.status.setAt e.env
  marked : s.marked = true → e.schedules s.status = false ∧ ∀ now, e.call = .isReady now → now < s.status.dueAt e.env

section Calls
variable {dls : DownloadStatus} {env : Env} {choices : Nat → Nat} {min delay now : Int}

theorem nextRandomExponentialDelay_some (choice : Nat) (below : min < intMax) :
    ∃ d, nextRandomExponentialDelay choice delay min = some d := by
  rw [nextRandomExponentialDelay]
  dsimp only
  generalize baseEq : (if min < 1 then 1 else min) = base
  have baseLt : base < intMax := by
    rw [← baseEq, intMax] at *
    split <;> omega
  have basePos : 1 ≤ base := by
    rw [← baseEq]
    split <;> omega
  have range (delay : Int) : ∃ low high, nextRandomExponentialDelayRange delay base = some (low, high) ∧
      low < high ∧ high ≤ intMax := by
    rw [nextRandomExponentialDelayRange]
    generalize times : (if delay < intMax / 3 then delay * 3 else intMax) = delayTimes3
    have le : delayTimes3 ≤ intMax := by
      rw [← times, intMax]
      split <;> omega
    split
    · next more => exact ⟨_, _, rfl, more, le⟩
    · refine ⟨base, base + 1, ?_, by omega, by omega⟩
      rw [checked, if_pos ⟨by omega, by omega⟩]
      rfl
  obtain ⟨low, high, eq, lt, le⟩ := range (if delay < 0 then 0 else delay)
  rw [eq]
  exact ⟨_, by dsimp only [Option.bind_eq_bind, Option.bind_some]; rw [cryptoRandIntRange, if_pos ⟨lt, le⟩]⟩

theorem backOff_some (below : min < intMax) (n : Nat) (delay : Int) : ∃ d, backOff choices min n delay = some d := by
  induction n generalizing delay with
  | zero => exact ⟨delay, rfl⟩
  | succ n ih =>
      obtain ⟨d, step⟩ := @nextRandomExponentialDelay_some min delay (choices n) below
      obtain ⟨d', others⟩ := ih d
      exact ⟨d', by rw [backOff, step]; exact others⟩

theorem downloadStatusScheduleGetDelay_spec (nonneg : 0 ≤ min) (below : min < intMax) (early : now ≤ timeMax)
    (behind : dls.lastBackoffPosition ≤ dls.position) :
    ∃ dls' d, downloadStatusScheduleGetDelay dls min now choices = some (dls', d, false) ∧ min ≤ d ∧
      now ≤ dls'.nextAttemptAt ∧ (dls'.nextAttemptAt = 0 → now ≤ 0) ∧ dls'.lastBackoffPosition ≤ dls'.position ∧
        dls'.schedule = dls.schedule ∧ dls'.wantAuthority = dls.wantAuthority := by
  have notMissed : decide (dls.position < dls.lastBackoffPosition) = false := decide_eq_false (UInt8.not_lt.mpr behind)
  have drawn : ∃ d, (if 0 < dls.position then
      backOff choices min (dls.position.toNat - dls.lastBackoffPosition.toNat) dls.lastDelayUsed else some min) =
        some d := by
    split
    · exact backOff_some below _ _
    · exact ⟨min, rfl⟩
  obtain ⟨d, drawn⟩ := drawn
  rw [downloadStatusScheduleGetDelay, if_neg (by omega)]
  dsimp only
  rw [notMissed, if_neg Bool.false_ne_true, drawn]
  dsimp only [Option.bind_eq_bind, Option.bind_some]
  generalize clamped : (if d < min then min else d) = delay
  have atLeast : min ≤ delay := by
    rw [← clamped]
    split <;> omega
  rw [if_neg (by omega)]
  refine ⟨_, delay, rfl, atLeast, ?_, ?_, UInt8.le_refl _, rfl, rfl⟩
  · dsimp only
    split <;> omega
  · dsimp only
    rw [timeMax] at *
    split <;> omega

structure Alike (dls' dls : DownloadStatus) : Prop where
  schedule : dls'.schedule = dls.schedule
  wantAuthority : dls'.wantAuthority = dls.wantAuthority
  incrementOn : dls'.incrementOn = dls.incrementOn

theorem Alike.minDelay {dls' : DownloadStatus} (alike : Alike dls' dls) (env : Env) :
    findDlMinDelay dls' env = findDlMinDelay dls env := by
  rw [findDlMinDelay, findDlMinDelay, alike.schedule, alike.wantAuthority]

theorem initialDelayFromNow_eq (fits : (env.time : Int) + findDlMinDelay dls env ≤ timeMax) :
    initialDelayFromNow dls env = some ((env.time : Int) + findDlMinDelay dls env) := by
  have low := env.time.2.1
  have nonneg := (findDlMinDelay dls env).2.1
  rw [initialDelayFromNow, checked, if_pos ⟨by omega, fits⟩]

theorem downloadStatusGetNextAttemptAt_eq
    (fits : dls.nextAttemptAt = 0 → (env.time : Int) + findDlMinDelay dls env ≤ timeMax) :
    downloadStatusGetNextAttemptAt dls env = some (dls.dueAt env) := by
  rw [downloadStatusGetNextAttemptAt, DownloadStatus.dueAt]
  split
  · next unset => exact initialDelayFromNow_eq (fits unset)
  · rfl

theorem downloadStatusReset_spec (fits : (env.time : Int) + findDlMinDelay dls env ≤ timeMax)
    (behind : dls.lastBackoffPosition ≤ dls.position) :
    ∃ dls', downloadStatusReset dls env = some dls' ∧ Alike dls' dls ∧ dls'.lastBackoffPosition ≤ dls'.position ∧
      (dls.nextAttemptAt = 0 → dls'.dueAt env = dls.dueAt env ∧ dls'.nextAttemptAt = dls.setAt env) := by
  rw [downloadStatusReset]
  split
  · next impossible =>
      refine ⟨dls, rfl, ⟨rfl, rfl, rfl⟩, behind, fun _ => ⟨rfl, ?_⟩⟩
      rw [DownloadStatus.setAt, if_neg fun both => both.2 impossible]
  · next possible =>
    have start : initialDelayFromNow { dls with nDownloadFailures := 0, nDownloadAttempts := 0 } env = _ :=
      initialDelayFromNow_eq fits
    dsimp only
    rw [start]
    refine ⟨_, rfl, ⟨rfl, rfl, rfl⟩, UInt8.le_iff_toNat_le.mpr (Nat.zero_le _), fun unset => ⟨?_, ?_⟩⟩
    · rw [DownloadStatus.dueAt, DownloadStatus.dueAt, if_pos unset]
      split <;> rfl
    · rw [DownloadStatus.setAt, if_pos ⟨unset, possible⟩]
      rfl

theorem resetBeforeUse_spec (fits : dls.nextAttemptAt = 0 → (env.time : Int) + findDlMinDelay dls env ≤ timeMax)
    (behind : dls.lastBackoffPosition ≤ dls.position) :
    ∃ dls', resetBeforeUse dls env = some dls' ∧ Alike dls' dls ∧ dls'.lastBackoffPosition ≤ dls'.position ∧
      dls'.dueAt env = dls.dueAt env ∧ dls'.nextAttemptAt = dls.setAt env ∧
        (dls'.nextAttemptAt = 0 → dls.nextAttemptAt = 0) := by
  rw [resetBeforeUse]
  split
  · next unset =>
      obtain ⟨dls', run, alike, behind', due⟩ := downloadStatusReset_spec (fits unset) behind
      exact ⟨dls', run, alike, behind', (due unset).1, (due unset).2, fun _ => unset⟩
  · next set =>
      refine ⟨dls, rfl, ⟨rfl, rfl, rfl⟩, behind, rfl, ?_, id⟩
      rw [DownloadStatus.setAt, if_neg fun both => set both.1]

theorem countUp_le (n : UInt8) : n ≤ countUp n := by
  rw [countUp]
  split
  · next room =>
      have lt : n.toNat < 254 := UInt8.lt_iff_toNat_lt.mp room
      rw [UInt8.le_iff_toNat_le, UInt8.toNat_add, UInt8.toNat_one]
      omega
  · exact UInt8.le_refl n

theorem schedule_right {s : Tracked} {e : Event} {dls' counted : DownloadStatus} {now : Time}
    (meets : Meets s e) (noted : e.notedAt = some now) (schedules : e.schedules s.status = true)
    (alike : Alike dls' s.status) (like : Alike counted dls') (behind : counted.lastBackoffPosition ≤ counted.position) :
    ∃ out, scheduleNext counted e.env now e.choices = some out ∧ Right s e out ∧ out.status.lastBackoffPosition ≤ out.status.position := by
  have same : findDlMinDelay counted e.env = findDlMinDelay s.status e.env := by rw [like.minDelay, alike.minDelay]
  have below := same ▸ meets.minDelay schedules
  obtain ⟨dls, d, run, atLeast, notBefore, zero, behind', sched, want⟩ :=
    @downloadStatusScheduleGetDelay_spec counted e.choices _ now (findDlMinDelay counted e.env).2.1 below now.2.2 behind
  have next : downloadStatusGetNextAttemptAt dls e.env = some (dls.dueAt e.env) := by
    refine downloadStatusGetNextAttemptAt_eq fun unset => ?_
    have min : findDlMinDelay dls e.env = findDlMinDelay s.status e.env := by
      rw [← same, findDlMinDelay, findDlMinDelay, sched, want]
    rw [min]
    exact meets.clock (.inr (.inr ⟨now, noted, zero unset⟩))
  refine ⟨⟨dls, some d, false, dls.dueAt e.env⟩, ?_, ⟨rfl, fun d' mem => ?_, fun now' mem => ?_, fun marked => ?_⟩,
    behind'⟩
  · rw [scheduleNext, run]
    dsimp only [Option.bind_eq_bind, Option.bind_some]
    rw [next]
    rfl
  · obtain rfl := Option.some.inj mem
    exact same ▸ atLeast
  · obtain rfl := Option.some.inj (noted.symm.trans mem)
    exact notBefore
  · rw [(meets.marked marked).1] at schedules
    cases schedules

theorem call_right {s : Tracked} {e : Event} (behind : s.status.lastBackoffPosition ≤ s.status.position)
    (meets : Meets s e) :
    ∃ out, s.status.call e = some out ∧ Right s e out ∧ out.status.lastBackoffPosition ≤ out.status.position := by
  obtain ⟨call, env, choices⟩ := e
  have fits := fun unset => meets.clock (.inl unset)
  cases call with
  | incrementFailure now =>
      obtain ⟨dls', run, alike, behind', -, set, zero⟩ := resetBeforeUse_spec fits behind
      show ∃ out, downloadStatusIncrementFailure s.status env now choices = some out ∧ _
      unfold downloadStatusIncrementFailure
      rw [run]
      dsimp only [Option.bind_eq_bind, Option.bind_some]
      cases kind : dls'.incrementOn with
      | failure =>
          have schedules : (Event.mk (.incrementFailure now) env choices).schedules s.status = true :=
            decide_eq_true (alike.incrementOn.symm.trans kind)
          refine schedule_right (e := ⟨.incrementFailure now, env, choices⟩) meets rfl schedules alike ⟨rfl, rfl, kind.symm⟩ ?_
          rw [DownloadStatus.position, kind] at behind'
          exact UInt8.le_trans behind' (countUp_le _)
      | attempt =>
          have other : (Event.mk (.incrementFailure now) env choices).schedules s.status = false := by
            refine decide_eq_false fun failure => ?_
            rw [← alike.incrementOn, kind] at failure
            cases failure
          dsimp only
          rw [downloadStatusGetNextAttemptAt_eq fun unset => (alike.minDelay env).symm ▸ fits (zero unset)]
          refine ⟨_, rfl, ⟨rfl, fun d mem => (by cases mem), fun now' mem => ?_,
            fun _ => ⟨rfl, fun _ is => (by cases is)⟩⟩, ?_⟩
          · exact Int.le_trans (meets.other now' mem other) (Int.le_of_eq set.symm)
          · rw [DownloadStatus.position, kind] at behind'
            exact behind'
  | incrementAttempt now =>
      obtain ⟨dls', run, alike, behind', -, set, zero⟩ := resetBeforeUse_spec fits behind
      show ∃ out, downloadStatusIncrementAttempt s.status env now choices = some out ∧ _
      unfold downloadStatusIncrementAttempt
      rw [run]
      dsimp only [Option.bind_eq_bind, Option.bind_some]
      cases kind : dls'.incrementOn with
      | failure =>
          have other : (Event.mk (.incrementAttempt now) env choices).schedules s.status = false := by
            refine decide_eq_false fun attempt => ?_
            rw [← alike.incrementOn, kind] at attempt
            cases attempt
          refine ⟨_, rfl, ⟨rfl, fun d mem => (by cases mem), fun now' mem => ?_,
            fun _ => ⟨rfl, fun _ is => (by cases is)⟩⟩, behind'⟩
          exact Int.le_trans (meets.other now' mem other) (Int.le_of_eq set.symm)
      | attempt =>
          have schedules : (Event.mk (.incrementAttempt now) env choices).schedules s.status = true :=
            decide_eq_true (alike.incrementOn.symm.trans kind)
          refine schedule_right (e := ⟨.incrementAttempt now, env, choices⟩) meets rfl schedules alike ⟨rfl, rfl, kind.symm⟩ ?_
          rw [DownloadStatus.position, kind] at behind'
          exact UInt8.le_trans behind' (countUp_le _)
  | reset =>
      obtain ⟨dls', run, -, behind', -⟩ := downloadStatusReset_spec (meets.clock (.inr (.inl rfl))) behind
      refine ⟨⟨dls', none, false, 0⟩, ?_,
        ⟨rfl, fun d mem => (by cases mem), fun now mem => (by cases mem), fun _ => ?_⟩, behind'⟩
      · show (downloadStatusReset s.status env).map _ = _
        rw [run]
        rfl
      · exact ⟨rfl, fun _ is => (by cases is)⟩
  | isReady now =>
      obtain ⟨dls', run, alike, behind', due, -, zero⟩ := resetBeforeUse_spec fits behind
      have next := downloadStatusGetNextAttemptAt_eq fun unset => (alike.minDelay env).symm ▸ fits (zero unset)
      refine ⟨⟨dls', none, false, if dls'.dueAt env ≤ now then 1 else 0⟩, ?_, ⟨rfl, fun d mem => (by cases mem),
        fun now mem => (by cases mem), fun marked => ⟨rfl, fun now' is => ?_⟩⟩, behind'⟩
      · show downloadStatusIsReady s.status env now = _
        rw [downloadStatusIsReady, run]
        dsimp only [Option.bind_eq_bind, Option.bind_some]
        rw [next]
        rfl
      · have early := (meets.marked marked).2 now' is
        obtain rfl := Call.isReady.inj is
        rw [if_neg (Int.not_le.mpr (due ▸ early))]
  | markImpossible =>
      refine ⟨_, rfl, ⟨rfl, fun d mem => (by cases mem), fun now mem => (by cases mem),
        fun _ => ⟨rfl, fun _ is => (by cases is)⟩⟩, ?_⟩
      show s.status.lastBackoffPosition ≤ (downloadStatusMarkImpossible s.status).position
      have most : (downloadStatusMarkImpossible s.status).position = 255 := by
        rw [DownloadStatus.position]
        split <;> rfl
      rw [most, UInt8.le_iff_toNat_le]
      exact Nat.le_of_lt_succ s.status.lastBackoffPosition.toNat_lt

end Calls

def unused (schedule : Schedule) (wantAuthority : Bool) (incrementOn : IncrementOn) : Tracked :=
  ⟨⟨0, 0, 0, schedule, wantAuthority, incrementOn, 0, 0⟩, false⟩

def plainEnv : Env :=
  let zero : Delay := ⟨0, by decide⟩
  ⟨zero, zero, zero, zero, zero, zero, zero, zero, false, false, false, false, ⟨100, by decide⟩⟩

end TorJet.Dirclient
