import TorJet.Base.Machine
import Mathlib.Data.List.Basic

/-!
# Sessions of the launcher

`RunTorSession` boots tor, serves it until it dies and boots it again when the watchdog was the one that
killed it. `WatchdogLoop` runs in a thread of its own that nothing waits for, so several of them can
be about, each at its own line.
-/

namespace TorJet.Launcher
open Base

abbrev Pid := Nat

structure Proc where
  attempt : Nat
  booted : Bool
  exited : Bool
  killers : List Nat
  deriving DecidableEq, Repr

/-- Where a thread of `WatchdogLoop` stands. -/
inductive Round
  | head
  | sleeping
  | checked
  | probing (p : Pid)
  | killing (p : Pid)
  | ended
  deriving DecidableEq, Repr

structure Watchdog where
  attempt : Nat
  fails : Nat
  round : Round
  deriving DecidableEq, Repr

/-- An entry of `AutoRace`: its process, if it could be started, and `FallbackUsed`. -/
structure RaceEntry where
  proc : Option Pid
  fallbackUsed : Bool
  deriving DecidableEq, Repr

/-- Where `RunTorSession` stands. -/
inductive Stage
  | menu
  | top
  | racing (racers : List RaceEntry)
  | ready
  | booting (tries : Nat) (fallbackUsed : Bool)
  | serving
  | finished
  deriving DecidableEq, Repr

inductive SessionEvent
  | session (raceStart : Bool)
  | race (racers : List (Bool × Bool))
  | raceRestart (i : Nat) (ok : Bool)
  | raceFails
  | raceWon (i : Nat)
  | start (ok canFallback : Bool)
  | bootRetry (ok : Bool)
  | bootFallback (ok : Bool)
  | bootFails
  | bootAbort
  | bootDone
  | testDone
  | serve
  | userStop
  | notice
  | booted (p : Pid)
  | exited (p : Pid)
  | check (i : Nat)
  | read (i : Nat)
  | probe (i : Nat) (ok : Bool)
  | kill (i : Nat)
  deriving DecidableEq, Repr

structure Session where
  procs : List Proc
  torProc : Option Pid
  watchdogStop : Bool
  watchdogTriggered : Bool
  watchdogs : List Watchdog
  stage : Stage
  raceStart : Bool
  attempt : Nat
  now : Nat
  deriving DecidableEq

namespace Session
variable (s : Session)

def hasExited (p : Pid) : Bool := (s.procs[p]?).any (·.exited)

def isBooted (p : Pid) : Bool := (s.procs[p]?).any (·.booted)

def modifyProc (p : Pid) (f : Proc → Proc) : Session := { s with procs := s.procs.modify p f }

def terminate (p : Pid) : Session := s.modifyProc p fun q => { q with exited := true }

/-- `StopPreviousRun`: every tor of this directory is killed. -/
def stopPreviousRun : Session := { s with procs := s.procs.map fun q => { q with exited := true } }

/-- `Process.Start`, with the process that it gives. -/
def spawn : Session × Pid :=
  ({ s with procs := s.procs ++ [⟨s.now, false, false, []⟩] }, s.procs.length)

/-- `StartTorAndWait` from the start of a process on; it returns null when that fails. -/
def launch (ok : Bool) (tries : Nat) (fallbackUsed : Bool) : Session :=
  if ok then
    let (s, p) := s.spawn
    { s with torProc := some p, stage := .booting tries fallbackUsed }
  else { s with torProc := none, stage := .menu }

/-- The top of the loop of `RunTorSession`. -/
def tryAgain : Session :=
  let s := { s with attempt := s.attempt + 1, now := s.now + 1, watchdogStop := true }
  if s.raceStart then { s with torProc := none, stage := .top } else { s with stage := .ready }

def startRacers (s : Session) : List (Bool × Bool) → Session × List RaceEntry
  | [] => (s, [])
  | (ok, canFallback) :: rest =>
      let (s, proc) := if ok then let (s, p) := s.spawn; (s, some p) else (s, none)
      let (s, racers) := startRacers s rest
      (s, ⟨proc, !canFallback⟩ :: racers)

def killRacer (r : RaceEntry) : Session := match r.proc with
  | some p => s.terminate p
  | none => s

def restartRacer (racers : List RaceEntry) (i : Nat) (ok : Bool) : Option Session :=
  match racers[i]? with
  | some ⟨some p, false⟩ =>
      let s := s.terminate p
      if ok then
        let (s, p) := s.spawn
        some { s with stage := .racing (racers.set i ⟨some p, true⟩) }
      else some { s with stage := .racing (racers.set i ⟨none, true⟩) }
  | _ => none

def settleRace (racers : List RaceEntry) (i : Nat) : Option Session :=
  match racers[i]? with
  | some ⟨some p, _⟩ =>
      if s.isBooted p then
        let alive := !s.hasExited p
        let s := (racers.eraseIdx i).foldl killRacer s
        some { s with torProc := if alive then some p else none, stage := .ready }
      else none
  | _ => none

def modifyWatchdog (i : Nat) (f : Watchdog → Watchdog) : Session :=
  { s with watchdogs := s.watchdogs.modify i f }

def startWatchdog (enabled : Bool) : Session :=
  if enabled then
    { s with watchdogStop := false, watchdogTriggered := false, watchdogs := s.watchdogs ++ [⟨s.now, 0, .head⟩] }
  else s

def roundOf (i : Nat) : Option Round := (s.watchdogs[i]?).map (·.round)

/-- The tests of `watchdogStop`, and the sleep between them. -/
def check (i : Nat) : Option Session :=
  match s.roundOf i with
  | some .head =>
      some (s.modifyWatchdog i fun w => { w with round := if s.watchdogStop then .ended else .sleeping })
  | some .sleeping =>
      some (s.modifyWatchdog i fun w => { w with round := if s.watchdogStop then .ended else .checked })
  | _ => none

def readProc (i : Nat) : Option Session :=
  match s.roundOf i with
  | some .checked =>
      some (s.modifyWatchdog i fun w => { w with round := match s.torProc with
        | some p => if s.hasExited p then .ended else .probing p
        | none => .ended })
  | _ => none

def watchdogFailuresToRestart : Nat := 4

def probe (i : Nat) (ok : Bool) : Option Session :=
  match s.watchdogs[i]? with
  | some ⟨attempt, fails, .probing p⟩ =>
      let fails := if ok then 0 else fails + 1
      if watchdogFailuresToRestart ≤ fails then
        some { s.modifyWatchdog i fun _ => ⟨attempt, fails, .killing p⟩ with watchdogTriggered := true }
      else some (s.modifyWatchdog i fun _ => ⟨attempt, fails, .head⟩)
  | _ => none

def kill (i : Nat) : Option Session :=
  match s.watchdogs[i]? with
  | some ⟨attempt, _, .killing p⟩ =>
      let s := if s.hasExited p then s
        else s.modifyProc p fun q => { q with exited := true, killers := attempt :: q.killers }
      some (s.modifyWatchdog i fun w => { w with round := .ended })
  | _ => none

/-- `Cleanup` kills the tor that runs. -/
def cleanup : Session := match s.torProc with
  | some p => s.terminate p
  | none => s

def notice : Option Session :=
  match s.stage, s.torProc with
  | .serving, some p =>
      if !s.hasExited p then none
      else if !s.watchdogTriggered then some { s with stage := .finished }
      else
        let s := { s with watchdogStop := true }
        if 3 ≤ s.attempt then some { s with stage := .finished } else some s.tryAgain
  | _, _ => none

/-- What happens while `StartTorAndWait` waits. -/
def bootStep (tries : Nat) (fallbackUsed : Bool) (p : Pid) : SessionEvent → Option Session
  | .bootRetry ok =>
      if s.hasExited p ∧ tries < 3 then some (s.launch ok (tries + 1) fallbackUsed) else none
  | .bootFallback ok =>
      if fallbackUsed then none else some ((s.terminate p).launch ok (tries + 1) true)
  | .bootFails => if s.hasExited p then some { s with torProc := none, stage := .menu } else none
  | .bootAbort => some { s.terminate p with torProc := none, stage := .menu }
  | .bootDone => if s.isBooted p then some { s with stage := .ready } else none
  | _ => none

/-- The steps of the thread that runs `RunTorSession`, which depend on where it stands. -/
def mainStep (enabled : Bool) (e : SessionEvent) : Option Session :=
  match s.stage, e with
  | .menu, .session raceStart => some { s with raceStart := raceStart, attempt := 0 }.tryAgain
  | .top, .race racers =>
      let (s, started) := s.stopPreviousRun.startRacers racers
      some { s with stage := .racing started }
  | .top, .raceFails => some { s with stage := .menu }
  | .racing racers, .raceRestart i ok => s.restartRacer racers i ok
  | .racing racers, .raceFails => some { racers.foldl killRacer s with stage := .menu }
  | .racing racers, .raceWon i => s.settleRace racers i
  | .ready, .start ok canFallback =>
      if s.torProc.isSome then none else some (s.stopPreviousRun.launch ok 1 (!canFallback))
  | .ready, .serve => if s.torProc.isSome then some { s.startWatchdog enabled with stage := .serving } else none
  | .ready, .testDone => if s.torProc.isSome then some { s.cleanup with stage := .finished } else none
  | .booting tries fallbackUsed, e => s.torProc.bind fun p => s.bootStep tries fallbackUsed p e
  | .serving, .userStop => some { s.cleanup with torProc := none, stage := .menu }
  | .serving, .notice => s.notice
  | _, _ => none

def step (enabled : Bool) (e : SessionEvent) : Option Session :=
  match e with
  | .booted p =>
      if p < s.procs.length ∧ !s.hasExited p then some (s.modifyProc p fun q => { q with booted := true }) else none
  | .exited p => if p < s.procs.length then some (s.terminate p) else none
  | .check i => s.check i
  | .read i => s.readProc i
  | .probe i ok => s.probe i ok
  | .kill i => s.kill i
  | e => s.mainStep enabled e

def machine (enabled : Bool) : Machine Session SessionEvent where
  step s e := step s enabled e

def initial : Session where
  procs := []
  torProc := none
  watchdogStop := true
  watchdogTriggered := false
  watchdogs := []
  stage := .menu
  raceStart := false
  attempt := 0
  now := 0

end Session

/-! ## Fresh processes -/

def Session.renews (s : Session) : SessionEvent → Bool
  | .notice => s.raceStart || !s.watchdogTriggered || 3 ≤ s.attempt
  | .read _ => s.stage = .serving || s.torProc.isNone
  | _ => true

def Stage.underway : Stage → Bool
  | .top | .racing _ | .ready | .booting .. => true
  | _ => false

def Round.target : Round → Option Pid
  | .probing p | .killing p => some p
  | _ => none

section Fresh
variable {s t u : Session} {p : Pid} {q : Proc} {enabled : Bool} {e : SessionEvent}

def Session.Fresh (s : Session) (p : Pid) : Prop :=
  ∃ q, s.procs[p]? = some q ∧ q.attempt = s.now ∧ q.killers = []

def Session.Staged (s : Session) : Prop :=
  match s.stage with
  | .menu | .top => s.torProc = none
  | .racing racers => s.torProc = none ∧ ∀ r ∈ racers, ∀ p, r.proc = some p → s.Fresh p
  | .ready => ∀ p, s.torProc = some p → s.Fresh p ∧ s.isBooted p = true
  | .booting .. => ∃ p, s.torProc = some p ∧ s.Fresh p
  | .serving => ∃ p, s.torProc = some p ∧ p < s.procs.length
  | .finished => True

structure Session.Renewed (s : Session) : Prop where
  past : ∀ q ∈ s.procs, q.attempt ≤ s.now
  targets : ∀ w ∈ s.watchdogs, ∀ p, w.round.target = some p →
    ∃ q, s.procs[p]? = some q ∧ (s.stage.underway = true → q.attempt < s.now)
  staged : s.Staged

structure Session.Grows (s t : Session) : Prop where
  now : t.now = s.now
  watchdogs : t.watchdogs = s.watchdogs
  old : ∀ (p : Pid) (q : Proc), s.procs[p]? = some q → ∃ q' : Proc, t.procs[p]? = some q' ∧
    q'.attempt = q.attempt ∧ q'.killers = q.killers ∧ (q.booted = true → q'.booted = true)
  new : ∀ q' ∈ t.procs, (∃ q ∈ s.procs, q'.attempt = q.attempt) ∨ q'.attempt = s.now

namespace Session

theorem Grows.refl (procs : t.procs = s.procs) (now : t.now = s.now) (watchdogs : t.watchdogs = s.watchdogs) :
    s.Grows t where
  now := now
  watchdogs := watchdogs
  old p q found := ⟨q, by rw [procs, found], rfl, rfl, id⟩
  new q mem := .inl ⟨q, procs ▸ mem, rfl⟩

theorem Grows.trans (first : s.Grows t) (second : t.Grows u) : s.Grows u where
  now := second.now.trans first.now
  watchdogs := second.watchdogs.trans first.watchdogs
  old p q found := by
    obtain ⟨q₁, found₁, attempt₁, killers₁, booted₁⟩ := first.old p q found
    obtain ⟨q₂, found₂, attempt₂, killers₂, booted₂⟩ := second.old p q₁ found₁
    exact ⟨q₂, found₂, attempt₂.trans attempt₁, killers₂.trans killers₁, booted₂ ∘ booted₁⟩
  new q mem := by
    rcases second.new q mem with ⟨q₁, mem₁, attempt⟩ | attempt
    · rcases first.new q₁ mem₁ with ⟨q₀, mem₀, attempt₀⟩ | attempt₀
      · exact .inl ⟨q₀, mem₀, attempt.trans attempt₀⟩
      · exact .inr (attempt.trans attempt₀)
    · exact .inr (attempt.trans first.now)

theorem modifyProc_grows {f : Proc → Proc} (attempt : ∀ q, (f q).attempt = q.attempt)
    (killers : ∀ q, (f q).killers = q.killers) (booted : ∀ q, q.booted = true → (f q).booted = true) :
    s.Grows (s.modifyProc p f) where
  now := rfl
  watchdogs := rfl
  old i q found := by
    simp only [modifyProc, List.getElem?_modify, found]
    split
    · exact ⟨f q, rfl, attempt q, killers q, booted q⟩
    · exact ⟨q, rfl, rfl, rfl, id⟩
  new q mem := by
    obtain ⟨i, at_⟩ := List.mem_iff_getElem?.mp mem
    simp only [modifyProc, List.getElem?_modify] at at_
    cases found : s.procs[i]? with
    | none => simp [found] at at_
    | some q₀ =>
        refine .inl ⟨q₀, List.mem_of_getElem? found, ?_⟩
        rw [found] at at_
        split at at_
        · obtain rfl := Option.some.inj at_
          exact attempt q₀
        · obtain rfl := Option.some.inj at_
          rfl

theorem terminate_grows : s.Grows (s.terminate p) :=
  modifyProc_grows (fun _ => rfl) (fun _ => rfl) fun _ booted => booted

theorem stopPreviousRun_grows : s.Grows s.stopPreviousRun where
  now := rfl
  watchdogs := rfl
  old p q found := ⟨{ q with exited := true }, by simp [stopPreviousRun, found], rfl, rfl, id⟩
  new q mem := by
    obtain ⟨q₀, mem₀, rfl⟩ := List.mem_map.mp mem
    exact .inl ⟨q₀, mem₀, rfl⟩

theorem spawn_grows : s.Grows s.spawn.1 where
  now := rfl
  watchdogs := rfl
  old p q found := by
    obtain ⟨range, rfl⟩ := List.getElem?_eq_some_iff.mp found
    exact ⟨s.procs[p], by rw [spawn, List.getElem?_append_left range, found], rfl, rfl, id⟩
  new q mem := by
    rcases List.mem_append.mp mem with old | new
    · exact .inl ⟨q, old, rfl⟩
    · obtain rfl := List.mem_singleton.mp new
      exact .inr rfl

theorem spawn_fresh : s.spawn.1.Fresh s.spawn.2 :=
  ⟨⟨s.now, false, false, []⟩, by simp [spawn], rfl, rfl⟩

theorem cleanup_grows : s.Grows s.cleanup := by
  unfold cleanup
  split
  · exact terminate_grows
  · exact .refl rfl rfl rfl

theorem killRacer_grows (r : RaceEntry) : s.Grows (s.killRacer r) := by
  unfold killRacer
  split
  · exact terminate_grows
  · exact .refl rfl rfl rfl

theorem killRacers_grows (racers : List RaceEntry) : s.Grows (racers.foldl killRacer s) := by
  induction racers generalizing s with
  | nil => exact .refl rfl rfl rfl
  | cons r racers ih => exact (killRacer_grows r).trans ih

theorem Fresh.grows (fresh : s.Fresh p) (grows : s.Grows t) : t.Fresh p := by
  obtain ⟨q, found, attempt, killers⟩ := fresh
  obtain ⟨q', found', attempt', killers', -⟩ := grows.old p q found
  exact ⟨q', found', by rw [attempt', attempt, grows.now], killers'.trans killers⟩

theorem Grows.booted (grows : s.Grows t) (booted : s.isBooted p = true) : t.isBooted p = true := by
  obtain ⟨q, found, isBooted⟩ := (Option.any_eq_true _ _).mp booted
  obtain ⟨q', found', -, -, booted'⟩ := grows.old p q found
  rw [isBooted] at booted'
  simp [Session.isBooted, found', booted' rfl]

theorem Renewed.grows (h : s.Renewed) (grows : s.Grows t)
    (underway : t.stage.underway = true → s.stage.underway = true) (staged : t.Staged) : t.Renewed where
  past q mem := by
    rw [grows.now]
    rcases grows.new q mem with ⟨q₀, mem₀, attempt⟩ | attempt
    · exact attempt ▸ h.past q₀ mem₀
    · exact Nat.le_of_eq attempt
  targets w mem p target := by
    rw [grows.watchdogs] at mem
    obtain ⟨q, found, before⟩ := h.targets w mem p target
    obtain ⟨q', found', attempt, -⟩ := grows.old p q found
    refine ⟨q', found', fun isUnderway => ?_⟩
    rw [attempt, grows.now]
    exact before (underway isUnderway)
  staged := staged

theorem Renewed.tryAgain (h : s.Renewed) (idle : s.raceStart = false → s.torProc = none) :
    s.tryAgain.Renewed := by
  obtain ⟨now, procs, watchdogs⟩ : s.tryAgain.now = s.now + 1 ∧ s.tryAgain.procs = s.procs ∧
      s.tryAgain.watchdogs = s.watchdogs := by
    unfold Session.tryAgain
    dsimp only
    split <;> exact ⟨rfl, rfl, rfl⟩
  refine ⟨fun q mem => ?_, fun w mem p target => ?_, ?_⟩
  · rw [procs] at mem
    have le := h.past q mem
    omega
  · rw [watchdogs] at mem
    obtain ⟨q, found, -⟩ := h.targets w mem p target
    have le := h.past q (List.mem_of_getElem? found)
    exact ⟨q, by rw [procs, found], fun _ => by omega⟩
  · unfold Session.tryAgain
    dsimp only
    split
    · rfl
    · rename_i noRace
      simp [Staged, idle (by simpa using noRace)]

theorem Renewed.launch {ok : Bool} {tries : Nat} {fallbackUsed : Bool} (h : s.Renewed)
    (underway : s.stage.underway = true) : (s.launch ok tries fallbackUsed).Renewed := by
  unfold Session.launch
  split
  · refine h.grows (spawn_grows.trans (.refl rfl rfl rfl)) (fun _ => underway) ?_
    exact ⟨_, rfl, spawn_fresh.grows (.refl rfl rfl rfl)⟩
  · exact h.grows (.refl rfl rfl rfl) (fun _ => underway) rfl

theorem startRacers_grows (racers : List (Bool × Bool)) : s.Grows (s.startRacers racers).1 := by
  induction racers generalizing s with
  | nil => exact .refl rfl rfl rfl
  | cons racer racers ih =>
      obtain ⟨ok, canFallback⟩ := racer
      cases ok with
      | true => exact spawn_grows.trans ih
      | false => exact ih

theorem startRacers_torProc (racers : List (Bool × Bool)) : (s.startRacers racers).1.torProc = s.torProc := by
  induction racers generalizing s with
  | nil => rfl
  | cons racer racers ih =>
      obtain ⟨ok, canFallback⟩ := racer
      cases ok with
      | true => exact ih
      | false => exact ih

theorem killRacers_torProc (racers : List RaceEntry) : (racers.foldl killRacer s).torProc = s.torProc := by
  induction racers generalizing s with
  | nil => rfl
  | cons r racers ih =>
      refine ih.trans ?_
      unfold killRacer
      split <;> rfl

theorem startWatchdog_frame (enabled : Bool) : (s.startWatchdog enabled).now = s.now ∧
    (s.startWatchdog enabled).procs = s.procs ∧ (s.startWatchdog enabled).torProc = s.torProc := by
  unfold startWatchdog
  split <;> exact ⟨rfl, rfl, rfl⟩

theorem serve_inv (serves : s.step enabled .serve = some t) : s.stage = .ready ∧
    ∃ p, s.torProc = some p ∧ t = { s.startWatchdog enabled with stage := .serving } := by
  cases stage : s.stage with
  | ready =>
      simp only [Session.step, mainStep, stage] at serves
      split at serves
      · rename_i isSome
        obtain ⟨p, isProc⟩ := Option.isSome_iff_exists.mp isSome
        exact ⟨rfl, p, isProc, (Option.some.inj serves).symm⟩
      · cases serves
  | booting tries fallbackUsed =>
      simp only [Session.step, mainStep, stage] at serves
      obtain ⟨p, -, stuck⟩ := Option.bind_eq_some_iff.mp serves
      cases stuck
  | _ => simp [Session.step, mainStep, stage] at serves

theorem startRacers_fresh (racers : List (Bool × Bool)) :
    ∀ r ∈ (s.startRacers racers).2, ∀ p, r.proc = some p → (s.startRacers racers).1.Fresh p := by
  induction racers generalizing s with
  | nil => simp [startRacers]
  | cons racer racers ih =>
      obtain ⟨ok, canFallback⟩ := racer
      intro r mem p proc
      cases ok with
      | true =>
          rcases List.mem_cons.mp mem with rfl | rest
          · obtain rfl := Option.some.inj proc
            exact spawn_fresh.grows (startRacers_grows racers)
          · exact ih r rest p proc
      | false =>
          rcases List.mem_cons.mp mem with rfl | rest
          · cases proc
          · exact ih r rest p proc

theorem Renewed.watchdog {i : Nat} {f : Watchdog → Watchdog} (h : s.Renewed)
    (procs : t.procs = s.procs) (now : t.now = s.now) (stage : t.stage = s.stage)
    (torProc : t.torProc = s.torProc) (watchdogs : t.watchdogs = s.watchdogs.modify i f)
    (targets : ∀ w, s.watchdogs[i]? = some w → ∀ p, (f w).round.target = some p →
      w.round.target = some p ∨ s.stage = .serving ∧ s.torProc = some p) : t.Renewed := by
  refine ⟨by rw [procs, now]; exact h.past, fun w mem p target => ?_, ?_⟩
  · rw [procs, now, stage]
    rw [watchdogs] at mem
    obtain ⟨k, at_⟩ := List.mem_iff_getElem?.mp mem
    rw [List.getElem?_modify] at at_
    cases found : s.watchdogs[k]? with
    | none => simp [found] at at_
    | some w₀ =>
        have old := h.targets w₀ (List.mem_of_getElem? found)
        rw [found] at at_
        split at at_
        · rename_i here
          subst here
          obtain rfl := Option.some.inj at_
          rcases targets w₀ found p target with same | ⟨serving, isProc⟩
          · exact old p same
          · obtain ⟨p', isProc', range⟩ : ∃ p, s.torProc = some p ∧ p < s.procs.length := by
              simpa [Staged, serving] using h.staged
            obtain rfl : p = p' := Option.some.inj (isProc.symm.trans isProc')
            exact ⟨s.procs[p], List.getElem?_eq_getElem range, by simp [serving, Stage.underway]⟩
        · obtain rfl := Option.some.inj at_
          exact old p target
  · have same := h.staged
    unfold Staged at same ⊢
    simpa only [stage, torProc, Fresh, isBooted, procs, now] using same

theorem Renewed.killed {w : Watchdog} (h : s.Renewed) (mem : w ∈ s.watchdogs) (target : w.round.target = some p) :
    (s.modifyProc p fun q => { q with exited := true, killers := w.attempt :: q.killers }).Renewed := by
  obtain ⟨q, found, before⟩ := h.targets w mem p target
  have procs (i : Pid) (q₀ : Proc) (at_ : s.procs[i]? = some q₀) : ∃ q', (s.modifyProc p fun q =>
      { q with exited := true, killers := w.attempt :: q.killers }).procs[i]? = some q' ∧
        q'.attempt = q₀.attempt ∧ q'.booted = q₀.booted ∧ (i ≠ p → q' = q₀) := by
    simp only [modifyProc, List.getElem?_modify, at_]
    split
    · rename_i here
      exact ⟨_, rfl, rfl, rfl, fun ne => absurd here.symm ne⟩
    · exact ⟨_, rfl, rfl, rfl, fun _ => rfl⟩
  -- a process of this attempt is another one, and stays as it is
  have fresh (underway : s.stage.underway = true) (i : Pid) (isFresh : s.Fresh i) :
      (s.modifyProc p fun q => { q with exited := true, killers := w.attempt :: q.killers }).Fresh i := by
    obtain ⟨q₀, at_, attempt, killers⟩ := isFresh
    obtain ⟨q', at', -, -, same⟩ := procs i q₀ at_
    have ne : i ≠ p := by
      rintro rfl
      obtain rfl : q = q₀ := Option.some.inj (found.symm.trans at_)
      have lt := before underway
      omega
    rw [same ne] at at'
    exact ⟨q₀, at', attempt, killers⟩
  refine ⟨fun q' isMem => ?_, fun w' isMem i isTarget => ?_, ?_⟩
  · obtain ⟨i, at_⟩ := List.mem_iff_getElem?.mp isMem
    cases old : s.procs[i]? with
    | none => simp [modifyProc, List.getElem?_modify, old] at at_
    | some q₀ =>
        obtain ⟨q₁, at₁, attempt, -⟩ := procs i q₀ old
        obtain rfl : q' = q₁ := Option.some.inj (at_.symm.trans at₁)
        exact attempt ▸ h.past q₀ (List.mem_of_getElem? old)
  · obtain ⟨q₀, at_, earlier⟩ := h.targets w' isMem i isTarget
    obtain ⟨q', at', attempt, -⟩ := procs i q₀ at_
    exact ⟨q', at', fun underway => attempt ▸ earlier underway⟩
  · have staged := h.staged
    unfold Staged at staged ⊢
    cases stage : s.stage with
    | menu | top =>
        simp only [stage] at staged
        simpa only [modifyProc, stage] using staged
    | racing racers =>
        simp only [stage] at staged
        simp only [modifyProc, stage]
        exact ⟨staged.1, fun r isMem i proc => fresh (by rw [stage]; rfl) i (staged.2 r isMem i proc)⟩
    | ready =>
        simp only [stage] at staged
        simp only [modifyProc, stage]
        intro i isProc
        obtain ⟨isFresh, booted⟩ := staged i isProc
        refine ⟨fresh (by rw [stage]; rfl) i isFresh, ?_⟩
        obtain ⟨q₀, at_, isBooted⟩ := (Option.any_eq_true _ _).mp booted
        obtain ⟨q', at', -, same, -⟩ := procs i q₀ at_
        exact (Option.any_eq_true _ _).mpr ⟨q', at', same.trans isBooted⟩
    | booting tries fallbackUsed =>
        simp only [stage] at staged
        simp only [modifyProc, stage]
        obtain ⟨i, isProc, isFresh⟩ := staged
        exact ⟨i, isProc, fresh (by rw [stage]; rfl) i isFresh⟩
    | serving =>
        simp only [stage] at staged
        simpa [modifyProc, stage] using staged
    | finished => simp [modifyProc, stage]

theorem Renewed.check {i : Nat} (h : s.Renewed) (action : s.check i = some t) : t.Renewed := by
  unfold Session.check at action
  split at action
  · obtain rfl := Option.some.inj action
    refine h.watchdog rfl rfl rfl rfl rfl fun w _ p target => ?_
    dsimp only at target
    split at target <;> cases target
  · obtain rfl := Option.some.inj action
    refine h.watchdog rfl rfl rfl rfl rfl fun w _ p target => ?_
    dsimp only at target
    split at target <;> cases target
  · cases action

theorem Renewed.readProc {i : Nat} (h : s.Renewed) (ok : s.renews (.read i) = true)
    (action : s.readProc i = some t) : t.Renewed := by
  unfold Session.readProc at action
  split at action
  · obtain rfl := Option.some.inj action
    refine h.watchdog rfl rfl rfl rfl rfl fun w _ p target => .inr ?_
    dsimp only at target
    split at target
    · rename_i p' isProc
      split at target
      · cases target
      · obtain rfl : p' = p := Option.some.inj target
        refine ⟨?_, isProc⟩
        simpa [renews, isProc] using ok
    · cases target
  · cases action

theorem Renewed.probe {i : Nat} {ok : Bool} (h : s.Renewed) (action : s.probe i ok = some t) : t.Renewed := by
  unfold Session.probe at action
  split at action
  · rename_i attempt fails p found
    dsimp only at action
    generalize (if ok then 0 else fails + 1) = failed at action
    split at action
    · obtain rfl := Option.some.inj action
      refine h.watchdog rfl rfl rfl rfl rfl fun w here p' target => .inl ?_
      obtain rfl := Option.some.inj (found.symm.trans here)
      exact target
    · obtain rfl := Option.some.inj action
      refine h.watchdog rfl rfl rfl rfl rfl fun w _ p target => ?_
      cases target
  · cases action

theorem Renewed.kill {i : Nat} (h : s.Renewed) (action : s.kill i = some t) : t.Renewed := by
  unfold Session.kill at action
  split at action
  · rename_i attempt fails p found
    obtain rfl := Option.some.inj action
    have killed : (if s.hasExited p then s
        else s.modifyProc p fun q => { q with exited := true, killers := attempt :: q.killers }).Renewed := by
      split
      · exact h
      · exact h.killed (List.mem_of_getElem? found) rfl
    refine killed.watchdog rfl rfl rfl rfl rfl fun w _ p target => ?_
    cases target
  · cases action

theorem Renewed.restartRacer {racers : List RaceEntry} {i : Nat} {ok : Bool} (h : s.Renewed)
    (racing : s.stage = .racing racers) (action : s.restartRacer racers i ok = some t) : t.Renewed := by
  have underway : s.stage.underway = true := by rw [racing]; rfl
  obtain ⟨idle, fresh⟩ : s.torProc = none ∧ ∀ r ∈ racers, ∀ p, r.proc = some p → s.Fresh p := by
    simpa [Staged, racing] using h.staged
  unfold Session.restartRacer at action
  split at action
  · dsimp only at action
    rename_i p at_
    split at action
    · obtain rfl := Option.some.inj action
      have spawned := terminate_grows.trans (spawn_grows (s := s.terminate p))
      refine h.grows (spawned.trans (.refl rfl rfl rfl)) (fun _ => underway) ⟨idle, fun r mem p' proc => ?_⟩
      rcases List.mem_or_eq_of_mem_set mem with old | rfl
      · exact (fresh r old p' proc).grows (spawned.trans (.refl rfl rfl rfl))
      · obtain rfl := Option.some.inj proc
        exact spawn_fresh.grows (.refl rfl rfl rfl)
    · obtain rfl := Option.some.inj action
      refine h.grows (terminate_grows.trans (.refl rfl rfl rfl)) (fun _ => underway) ⟨idle, fun r mem p' proc => ?_⟩
      rcases List.mem_or_eq_of_mem_set mem with old | rfl
      · exact (fresh r old p' proc).grows (terminate_grows.trans (.refl rfl rfl rfl))
      · cases proc
  · cases action

theorem Renewed.settleRace {racers : List RaceEntry} {i : Nat} (h : s.Renewed)
    (racing : s.stage = .racing racers) (action : s.settleRace racers i = some t) : t.Renewed := by
  have underway : s.stage.underway = true := by rw [racing]; rfl
  obtain ⟨-, fresh⟩ : s.torProc = none ∧ ∀ r ∈ racers, ∀ p, r.proc = some p → s.Fresh p := by
    simpa [Staged, racing] using h.staged
  unfold Session.settleRace at action
  split at action
  · rename_i p fallbackUsed at_
    split at action
    · rename_i booted
      obtain rfl := Option.some.inj action
      have grows := killRacers_grows (s := s) (racers.eraseIdx i)
      refine h.grows (grows.trans (.refl rfl rfl rfl)) (fun _ => underway) fun p' isProc => ?_
      dsimp only at isProc
      split at isProc
      · obtain rfl := Option.some.inj isProc
        have isFresh := fresh _ (List.mem_of_getElem? at_) p rfl
        exact ⟨isFresh.grows (grows.trans (.refl rfl rfl rfl)), (grows.trans (.refl rfl rfl rfl)).booted booted⟩
      · cases isProc
    · cases action
  · cases action

theorem Renewed.bootStep {tries : Nat} {fallbackUsed : Bool} (h : s.Renewed)
    (booting : s.stage = .booting tries fallbackUsed) (isProc : s.torProc = some p)
    (action : s.bootStep tries fallbackUsed p e = some t) : t.Renewed := by
  have underway : s.stage.underway = true := by rw [booting]; rfl
  obtain ⟨p', isProc', fresh⟩ : ∃ p, s.torProc = some p ∧ s.Fresh p := by
    simpa [Staged, booting] using h.staged
  obtain rfl : p = p' := Option.some.inj (isProc.symm.trans isProc')
  have killed : (s.terminate p).Renewed := by
    refine h.grows terminate_grows id ?_
    have still : (s.terminate p).stage = .booting tries fallbackUsed := booting
    unfold Staged
    rw [still]
    exact ⟨p, isProc, fresh.grows terminate_grows⟩
  cases e with
  | bootRetry ok =>
      simp only [Session.bootStep] at action
      split at action
      · obtain rfl := Option.some.inj action
        exact h.launch underway
      · cases action
  | bootFallback ok =>
      simp only [Session.bootStep] at action
      split at action
      · cases action
      · obtain rfl := Option.some.inj action
        exact killed.launch underway
  | bootFails =>
      simp only [Session.bootStep] at action
      split at action
      · obtain rfl := Option.some.inj action
        exact h.grows (.refl rfl rfl rfl) (fun _ => underway) rfl
      · cases action
  | bootAbort =>
      obtain rfl := Option.some.inj action
      exact killed.grows (.refl rfl rfl rfl) (fun _ => underway) rfl
  | bootDone =>
      simp only [Session.bootStep] at action
      split at action
      · rename_i booted
        obtain rfl := Option.some.inj action
        refine h.grows (.refl rfl rfl rfl) (fun _ => underway) fun p' here => ?_
        obtain rfl : p = p' := Option.some.inj (isProc.symm.trans here)
        exact ⟨fresh.grows (.refl rfl rfl rfl), booted⟩
      · cases action
  | _ => cases action

theorem Renewed.notice (h : s.Renewed) (ok : s.renews .notice = true) (action : s.notice = some t) : t.Renewed := by
  unfold Session.notice at action
  split at action
  · rename_i p serving isProc
    split at action
    · cases action
    · split at action
      · obtain rfl := Option.some.inj action
        exact h.grows (.refl rfl rfl rfl) nofun trivial
      · rename_i triggered
        have stopped : { s with watchdogStop := true }.Renewed := by
          refine h.grows (.refl rfl rfl rfl) id ?_
          simpa only [Staged, Fresh, isBooted] using h.staged
        dsimp only at action
        split at action
        · obtain rfl := Option.some.inj action
          exact h.grows (.refl rfl rfl rfl) nofun trivial
        · rename_i more
          obtain rfl := Option.some.inj action
          have raced : s.raceStart = true := by
            simp only [renews, Bool.or_eq_true, decide_eq_true_eq] at ok
            exact (ok.resolve_right more).resolve_right triggered
          exact stopped.tryAgain (by simp [raced])
  · cases action

theorem Renewed.serve (h : s.Renewed) (ready : s.stage = .ready) (isProc : s.torProc = some p) :
    ({ s.startWatchdog enabled with stage := .serving } : Session).Renewed := by
  have fresh : s.Fresh p := by
    have staged : ∀ p, s.torProc = some p → s.Fresh p ∧ s.isBooted p = true := by
      simpa [Staged, ready] using h.staged
    exact (staged p isProc).1
  obtain ⟨q, found, -⟩ := fresh
  have range : p < s.procs.length := (List.getElem?_eq_some_iff.mp found).1
  unfold startWatchdog
  split
  · refine ⟨h.past, fun w mem p target => ?_, ⟨p, isProc, range⟩⟩
    rcases List.mem_append.mp mem with old | new
    · obtain ⟨q, found, -⟩ := h.targets w old p target
      exact ⟨q, found, nofun⟩
    · obtain rfl := List.mem_singleton.mp new
      cases target
  · exact h.grows (.refl rfl rfl rfl) nofun ⟨p, isProc, range⟩

theorem Renewed.mainStep (h : s.Renewed) (ok : s.renews e = true) (action : s.mainStep enabled e = some t) :
    t.Renewed := by
  unfold Session.mainStep at action
  split at action
  case h_1 menu =>
    obtain rfl := Option.some.inj action
    have idle : s.torProc = none := by simpa [Staged, menu] using h.staged
    refine Renewed.tryAgain ?_ fun _ => idle
    refine h.grows (.refl rfl rfl rfl) id ?_
    simpa [Staged, menu] using idle
  case h_2 racers top =>
    obtain rfl := Option.some.inj action
    have idle : s.torProc = none := by simpa [Staged, top] using h.staged
    have grows := stopPreviousRun_grows.trans (startRacers_grows (s := s.stopPreviousRun) racers)
    refine h.grows (grows.trans (.refl rfl rfl rfl)) (fun _ => by rw [top]; rfl) ⟨?_, fun r mem p proc => ?_⟩
    · exact (startRacers_torProc racers).trans idle
    · exact (startRacers_fresh racers r mem p proc).grows (.refl rfl rfl rfl)
  case h_3 top =>
    obtain rfl := Option.some.inj action
    have idle : s.torProc = none := by simpa [Staged, top] using h.staged
    exact h.grows (.refl rfl rfl rfl) nofun idle
  case h_4 racing => exact h.restartRacer racing action
  case h_5 racers racing =>
    obtain rfl := Option.some.inj action
    obtain ⟨idle, -⟩ : s.torProc = none ∧ ∀ r ∈ racers, ∀ p, r.proc = some p → s.Fresh p := by
      simpa [Staged, racing] using h.staged
    refine h.grows ((killRacers_grows racers).trans (.refl rfl rfl rfl)) nofun ?_
    exact (killRacers_torProc racers).trans idle
  case h_6 racing => exact h.settleRace racing action
  case h_7 ready =>
    split at action
    · cases action
    · rename_i idle
      obtain rfl := Option.some.inj action
      have stopped : s.stopPreviousRun.Renewed := by
        refine h.grows stopPreviousRun_grows id ?_
        have still : s.stopPreviousRun.stage = .ready := ready
        have none : s.stopPreviousRun.torProc = none := by simpa [stopPreviousRun] using idle
        simp [Staged, still, none]
      exact stopped.launch (by rw [show s.stopPreviousRun.stage = .ready from ready]; rfl)
  case h_8 ready =>
    split at action
    · rename_i isSome
      obtain rfl := Option.some.inj action
      obtain ⟨p, isProc⟩ := Option.isSome_iff_exists.mp isSome
      exact h.serve ready isProc
    · cases action
  case h_9 =>
    split at action
    · obtain rfl := Option.some.inj action
      exact h.grows (cleanup_grows.trans (.refl rfl rfl rfl)) nofun trivial
    · cases action
  case h_10 booting =>
    obtain ⟨p, isProc, stepped⟩ := Option.bind_eq_some_iff.mp action
    exact h.bootStep booting isProc stepped
  case h_11 =>
    obtain rfl := Option.some.inj action
    exact h.grows (cleanup_grows.trans (.refl rfl rfl rfl)) nofun rfl
  case h_12 => exact h.notice ok action
  case h_13 => cases action

theorem Renewed.environment {f : Proc → Proc} (h : s.Renewed) (grows : s.Grows (s.modifyProc p f)) :
    (s.modifyProc p f).Renewed := by
  refine h.grows grows id ?_
  have staged := h.staged
  unfold Staged at staged ⊢
  cases stage : s.stage with
  | menu | top =>
      simp only [stage] at staged
      simpa only [modifyProc, stage] using staged
  | racing racers =>
      simp only [stage] at staged
      simp only [show (s.modifyProc p f).stage = .racing racers from stage]
      exact ⟨staged.1, fun r mem i proc => (staged.2 r mem i proc).grows grows⟩
  | ready =>
      simp only [stage] at staged
      simp only [show (s.modifyProc p f).stage = .ready from stage]
      exact fun i isProc => ⟨(staged i isProc).1.grows grows, grows.booted (staged i isProc).2⟩
  | booting tries fallbackUsed =>
      simp only [stage] at staged
      simp only [show (s.modifyProc p f).stage = .booting tries fallbackUsed from stage]
      obtain ⟨i, isProc, fresh⟩ := staged
      exact ⟨i, isProc, fresh.grows grows⟩
  | serving =>
      simp only [stage] at staged
      simpa [modifyProc, stage] using staged
  | finished => simp [modifyProc, stage]

theorem Renewed.step (h : s.Renewed) (ok : s.renews e = true) (action : s.step enabled e = some t) : t.Renewed := by
  unfold Session.step at action
  split at action
  · split at action
    · obtain rfl := Option.some.inj action
      exact h.environment (modifyProc_grows (fun _ => rfl) (fun _ => rfl) fun _ _ => rfl)
    · cases action
  · split at action
    · obtain rfl := Option.some.inj action
      exact h.environment terminate_grows
    · cases action
  · exact h.check action
  · exact h.readProc ok action
  · exact h.probe action
  · exact h.kill action
  · exact h.mainStep ok action

theorem initial_renewed : initial.Renewed where
  past := nofun
  targets := nofun
  staged := rfl

end Session
end Fresh
end TorJet.Launcher
