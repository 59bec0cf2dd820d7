import Mathlib.Data.List.Count
import TorJet.Base.Machine
import TorJet.Smartlist.Core
import TorJet.Transports.State

/-!
# What happens to the proxies

Lines that they write, launch timers, exits of their processes, and configuration reads.
-/

namespace TorJet.Transports
open Base Net

/-- The lines that `handle_proxy_line` knows, in the order in which it looks for them. -/
inductive Keyword
  | envError
  | negFail
  | negSuccess
  | cmethodsDone
  | smethodsDone
  | cmethodError
  | smethodError
  | cmethod
  | smethod
  | proxyDone
  | proxyError
  | log
  | status
  deriving DecidableEq

def Keyword.text : Keyword → Text
  | .envError => "ENV-ERROR".toList
  | .negFail => "VERSION-ERROR no-version".toList
  | .negSuccess => "VERSION".toList
  | .cmethodsDone => "CMETHODS DONE".toList
  | .smethodsDone => "SMETHODS DONE".toList
  | .cmethodError => "CMETHOD-ERROR".toList
  | .smethodError => "SMETHOD-ERROR".toList
  | .cmethod => "CMETHOD".toList
  | .smethod => "SMETHOD".toList
  | .proxyDone => "PROXY DONE".toList
  | .proxyError => "PROXY-ERROR".toList
  | .log => "LOG ".toList
  | .status => "STATUS ".toList

def Keyword.all : List Keyword :=
  [.envError, .negFail, .negSuccess, .cmethodsDone, .smethodsDone, .cmethodError, .smethodError, .cmethod,
    .smethod, .proxyDone, .proxyError, .log, .status]

def keyword (line : Text) : Option Keyword := Keyword.all.find? fun k => strcmpstart line k.text

/-- The state in which a proxy may send the line; `none` if it may send it in every state. -/
def Keyword.expected : Keyword → Option ProtoState
  | .envError | .negFail | .negSuccess => some .launched
  | .log | .status => none
  | _ => some .acceptingMethods

def parseVersion (line : Text) : Bool := line.drop (Keyword.text .negSuccess).length.succ = ['1']

/-- `parse_method_line_helper`: the transport, or nothing when the line is malformed. -/
def parseMethodLineHelper (line : Text) (isSmethod : Bool) : Run (Option Transport) :=
  let method := Keyword.text (if isSmethod then .smethod else .cmethod)
  match splitSpace line with
  | word :: name :: items =>
      if items.length < (if isSmethod then 1 else 2) then .ok none
      else if word ≠ method then .error .methodName
      else if !stringIsCIdentifier name then .ok none
      else
        match if isSmethod then items else afterSocksVersion items with
        | [] => .ok none
        | addrport :: _ =>
            match torAddrPortSplit addrport with
            | none => .ok none
            | some (address, port) =>
                if port = 0 then .ok none
                else .ok ((torAddrParse address).map fun addr => ⟨name, addr, port, false⟩)
  | _ => .ok none
where
  afterSocksVersion : List Text → List Text
    | version :: items => if version = "socks4".toList ∨ version = "socks5".toList then items else []
    | [] => []

def handleProxyLine (line : Text) (mp : ManagedProxy) : Run ManagedProxy :=
  let err := { mp with confState := .broken }
  match keyword line with
  | none => .ok mp
  | some kw =>
      if kw.expected.any (· ≠ mp.confState) then .ok err
      else
        match kw with
        | .envError | .negFail | .proxyError => .ok err
        | .negSuccess => .ok (if parseVersion line then { mp with confState := .acceptingMethods } else err)
        | .cmethodsDone | .smethodsDone => .ok { mp with confState := .configured }
        | .cmethodError | .smethodError | .log | .status => .ok mp
        | .cmethod | .smethod => do
            match ← parseMethodLineHelper line (kw = .smethod) with
            | none => return err
            | some t => return { mp with transports := mp.transports ++ [t] }
        | .proxyDone => .ok (if mp.proxyUri.isSome then { mp with proxySupported := true } else mp)

/-- A configuration, as `options_act` reads it. -/
structure ConfigRead where
  proxyUri : Option Text
  lines : List PluginLine
  netIsDisabled : Bool
  deriving DecidableEq

inductive Event
  | configRead (r : ConfigRead)
  | launchTimer (id : Nat) (runs : Bool)
  | stdout (pid : Nat) (line : Text)
  | exit (pid : Nat) (shuttingDown : Bool)
  deriving DecidableEq

/-- The proxy that `managed_proxy_create` makes. -/
def ManagedProxy.create (id : Nat) (names argv : List Text) (isServer : Bool) (uri : Option Text) :
    ManagedProxy :=
  { id, confState := .infant, argv, isServer
    transportsToLaunch := names.foldl (fun l n => if n ∈ l then l else l ++ [n]) []
    transports := [], proxyUri := uri, proxySupported := false, process := none
    launchEv := false, markedForRemoval := false, wasAround := false }

namespace Pt

def managedProxyStdoutCallback (s : Pt) (p : Process) (line : Text) : Run Pt :=
  match p.data with
  | none => .ok s
  | some id =>
      match s.findProxy id with
      | none => .error .useAfterFree
      | some mp => do
          let mp ← handleProxyLine line mp
          let s := s.modifyProxy id fun _ => mp
          if proxyConfigurationFinished mp then s.handleFinishedProxy mp else return s

/-- `managed_proxy_exit_callback`, and `process_free` after it. -/
def managedProxyExitCallback (s : Pt) (p : Process) (shuttingDown : Bool) : Run Pt :=
  match p.data with
  | none => .ok (s.freeProcess p.id)
  | some id =>
      match s.findProxy id with
      | none => .error .useAfterFree
      | some mp =>
          if mp.process ≠ some p.id then .error .process
          else do
            let s := s.modifyProxy id (·.leaveProcess)
            let s ← s.proxyPrepareForRestart mp.leaveProcess
            let s ← if shuttingDown then pure s else s.ptConfigureRemainingProxies
            return s.freeProcess p.id

/-- The loop body of `pt_prepare_proxy_list_for_config_read`. -/
def prepareProxy (s : Pt) (mp : ManagedProxy) : Run Pt :=
  if mp.confState ≠ .completed then do
    let s ← s.managedProxyDestroy mp true
    return { s with unconfiguredProxiesN := s.unconfiguredProxiesN - 1 }
  else
    .ok (s.modifyProxy mp.id (·.prepare))

def ptPrepareProxyListForConfigRead (s : Pt) : Run Pt := do
  s.assertUnconfiguredCountOk
  let s ← s.managedProxyList.foldlM prepareProxy s
  s.assertUnconfiguredCountOk
  if s.unconfiguredProxiesN = 0 then return s else .error .count

def managedProxyCreate (s : Pt) (names argv : List Text) (isServer : Bool) : Run Pt := do
  let mp := ManagedProxy.create s.nextProxy names argv isServer s.ptProxyUri
  let s :=
    { s with
      managedProxyList := s.managedProxyList ++ [mp]
      unconfiguredProxiesN := s.unconfiguredProxiesN + 1
      nextProxy := s.nextProxy + 1 }
  s.assertUnconfiguredCountOk
  return s

/-- The part of `pt_kickstart_proxy` about a proxy from before the configuration read. -/
def keepProxy (s : Pt) (mp : ManagedProxy) (names : List Text) : Pt :=
  if mp.wasAround then
    let s :=
      if mp.markedForRemoval then { s.modifyProxy mp.id (·.unmark) with checkIfRestartsNeeded := true } else s
    { s with transportList := names.foldl (fun l n => markByName l n false) s.transportList }
  else s

def ptKickstartProxy (s : Pt) (names argv : List Text) (isServer : Bool) : Run Pt :=
  if argv = [] then .ok s
  else
    match s.managedProxyList.find? fun mp => mp.argv = argv ∧ mp.isServer = isServer with
    | none => s.managedProxyCreate names argv isServer
    | some mp => .ok ((s.keepProxy mp names).modifyProxy mp.id (·.addTransports names))

def readLine (s : Pt) : PluginLine → Run Pt
  | .external name addr port =>
      .ok { s with transportList := transportAdd s.transportList ⟨name, addr, port, false⟩ }
  | .managed names argv isServer => s.ptKickstartProxy names argv isServer

/-- The loop body of `sweep_proxy_list`. -/
def sweepProxy (s : Pt) (mp : ManagedProxy) : Run Pt :=
  if mp.markedForRemoval then s.managedProxyDestroy mp true else .ok s

def sweepProxyList (s : Pt) : Run Pt := do
  s.assertUnconfiguredCountOk
  let s ← s.managedProxyList.foldlM sweepProxy s
  s.assertUnconfiguredCountOk
  return s

def withOptions (s : Pt) (r : ConfigRead) : Pt :=
  { s with ptProxyUri := r.proxyUri, lines := r.lines, transportList := markTransportList s.transportList }

/-- The part of `options_act` about pluggable transports. -/
def optionsAct (s : Pt) (r : ConfigRead) : Run Pt := do
  let s ← (s.withOptions r).ptPrepareProxyListForConfigRead
  let s ← r.lines.foldlM readLine s
  let s := { s with transportList := sweepTransportList s.transportList }
  let s ← s.sweepProxyList
  if s.ptProxiesConfigurationPending && !r.netIsDisabled then s.ptConfigureRemainingProxies else return s

def call (s : Pt) : Event → Option (Run Pt)
  | .configRead r => some (s.optionsAct r)
  | .launchTimer id runs =>
      if (s.findProxy id).any (·.launchEv) then some (s.launchProxyEv id runs) else none
  | .stdout pid line =>
      (s.processes.find? fun p => p.id = pid ∧ p.running).map (s.managedProxyStdoutCallback · line)
  | .exit pid shuttingDown =>
      (s.processes.find? fun p => p.id = pid ∧ p.running).map
        (s.managedProxyExitCallback · shuttingDown)

end Pt

def ptMachine : Machine (Run Pt) Event where
  step
    | .ok s, e => s.call e
    | .error _, _ => none

end TorJet.Transports

/-!
## What the functions change

Every function changes one proxy, removes one, or adds one. `Safe` says that a call ends without certain
faults and, if it ends without any, in a state with a property.
-/

namespace TorJet.Transports
open Base Net
open scoped List

section Safe
variable {α β : Type} {F : Fault → Prop} {P Q : α → Prop} {R : β → Prop}

def Safe (F : Fault → Prop) (P : α → Prop) : Run α → Prop
  | .ok a => P a
  | .error f => ¬F f

theorem Safe.bind {x : Run α} {f : α → Run β} (first : Safe F P x) (rest : ∀ a, P a → Safe F R (f a)) :
    Safe F R (x >>= f) := by
  cases x with
  | error e => exact first
  | ok a => exact rest a first

theorem Safe.mono {x : Run α} (safe : Safe F P x) (sub : ∀ a, P a → Q a) : Safe F Q x := by
  cases x with
  | error e => exact safe
  | ok a => exact sub a safe

theorem Safe.and {x : Run α} (left : Safe F P x) (right : Safe F Q x) :
    Safe F (fun a => P a ∧ Q a) x := by
  cases x with
  | error e => exact left
  | ok a => exact ⟨left, right⟩

theorem Safe.foldlM {f : β → α → Run β} {I : β → List α → Prop}
    (step : ∀ b a rest, I b (a :: rest) → Safe F (fun b' => I b' rest) (f b a)) (l : List α) :
    ∀ {b : β}, I b l → Safe F (fun b' => I b' []) (l.foldlM f b) := by
  induction l with
  | nil =>
      intro b initial
      exact initial
  | cons a rest ih =>
      intro b initial
      rw [List.foldlM_cons]
      apply (step b a rest initial).bind
      intro b' kept
      exact ih kept

end Safe

section Lists
variable {l : List ManagedProxy} {mp : ManagedProxy} (f : ManagedProxy → ManagedProxy)

theorem modified_perm (nodup : (l.map (·.id)).Nodup) (mem : mp ∈ l) :
    (l.map fun q => if q.id = mp.id then f q else q).Perm (f mp :: l.filter (·.id ≠ mp.id)) := by
  induction l with
  | nil => cases mem
  | cons q l ih =>
      rw [List.map_cons, List.nodup_cons] at nodup
      by_cases here : q.id = mp.id
      · have absent : ∀ r ∈ l, r.id ≠ mp.id := by
          intro r later same
          exact nodup.1 (here ▸ same ▸ List.mem_map_of_mem later)
        obtain rfl : mp = q := by
          rcases List.mem_cons.mp mem with eq | later
          · exact eq
          · exact absurd rfl (absent mp later)
        have others : (l.map fun q => if q.id = mp.id then f q else q) = l := by
          calc (l.map fun q => if q.id = mp.id then f q else q)
              _ = l.map id := List.map_congr_left fun r later => if_neg (absent r later)
              _ = l := List.map_id l
        have rest : l.filter (·.id ≠ mp.id) = l := by
          rw [List.filter_eq_self]
          intro r later
          exact decide_eq_true (absent r later)
        rw [List.map_cons, if_pos rfl, others, List.filter_cons_of_neg (by simp), rest]
      · have later : mp ∈ l := by
          rcases List.mem_cons.mp mem with rfl | later
          · exact absurd rfl here
          · exact later
        rw [List.map_cons, if_neg here, List.filter_cons_of_pos (by simpa using here)]
        calc q :: l.map (fun q => if q.id = mp.id then f q else q)
            _ ~ q :: f mp :: l.filter (·.id ≠ mp.id) := .cons q (ih nodup.2 later)
            _ ~ f mp :: q :: l.filter (·.id ≠ mp.id) := .swap ..

theorem removed_perm (nodup : (l.map (·.id)).Nodup) (mem : mp ∈ l) :
    l.Perm (mp :: l.filter (·.id ≠ mp.id)) := by
  have same := modified_perm id nodup mem
  simpa using same

end Lists

namespace Pt
variable {s t : Pt} {mp q : ManagedProxy} {f : ManagedProxy → ManagedProxy} {id : Nat}

structure Distinct (s : Pt) : Prop where
  nodup : (s.managedProxyList.map (·.id)).Nodup
  bounded : ∀ mp ∈ s.managedProxyList, mp.id < s.nextProxy

theorem Distinct.congr (distinct : s.Distinct) (list : t.managedProxyList = s.managedProxyList)
    (next : t.nextProxy = s.nextProxy) : t.Distinct := by
  constructor
  · rw [list]
    exact distinct.nodup
  · rw [list, next]
    exact distinct.bounded

theorem Distinct.find_iff (distinct : s.Distinct) :
    s.findProxy id = some mp ↔ mp ∈ s.managedProxyList ∧ mp.id = id :=
  Smartlist.find?_key_iff distinct.nodup

theorem mem_modifyProxy :
    q ∈ (s.modifyProxy id f).managedProxyList ↔
      (∃ mp ∈ s.managedProxyList, mp.id = id ∧ f mp = q) ∨ (q ∈ s.managedProxyList ∧ q.id ≠ id) := by
  rw [modifyProxy, List.mem_map]
  constructor
  · rintro ⟨mp, mem, rfl⟩
    by_cases here : mp.id = id
    · rw [if_pos here]
      exact .inl ⟨mp, mem, here, rfl⟩
    · rw [if_neg here]
      exact .inr ⟨mem, here⟩
  · rintro (⟨mp, mem, here, rfl⟩ | ⟨mem, here⟩)
    · exact ⟨mp, mem, if_pos here⟩
    · exact ⟨q, mem, if_neg here⟩

theorem mem_removeProxy :
    q ∈ (s.removeProxy id).managedProxyList ↔ q ∈ s.managedProxyList ∧ q.id ≠ id := by
  rw [removeProxy, List.mem_filter, decide_eq_true_iff]

theorem ids_modifyProxy (keeps : ∀ mp, (f mp).id = mp.id) :
    (s.modifyProxy id f).managedProxyList.map (·.id) = s.managedProxyList.map (·.id) := by
  rw [modifyProxy, List.map_map]
  apply List.map_congr_left
  intro mp _
  dsimp only [Function.comp]
  split
  · exact keeps mp
  · rfl

theorem Distinct.modify (distinct : s.Distinct) (keeps : ∀ mp, (f mp).id = mp.id) :
    (s.modifyProxy id f).Distinct := by
  constructor
  · rw [ids_modifyProxy keeps]
    exact distinct.nodup
  · intro q mem
    rcases mem_modifyProxy.mp mem with ⟨mp, there, -, rfl⟩ | ⟨there, -⟩
    · rw [keeps]
      exact distinct.bounded mp there
    · exact distinct.bounded q there

theorem Distinct.remove (distinct : s.Distinct) : (s.removeProxy id).Distinct := by
  constructor
  · exact distinct.nodup.sublist (List.filter_sublist.map _)
  · intro q mem
    exact distinct.bounded q (mem_removeProxy.mp mem).1

theorem Distinct.unique (distinct : s.Distinct) (mem : mp ∈ s.managedProxyList)
    (there : q ∈ s.managedProxyList) (same : q.id = mp.id) : q = mp := by
  have found := distinct.find_iff.mpr ⟨there, same⟩
  rw [distinct.find_iff.mpr ⟨mem, rfl⟩] at found
  exact (Option.some.inj found).symm

theorem modifyProxy_congr {g : ManagedProxy → ManagedProxy} (distinct : s.Distinct) (mem : mp ∈ s.managedProxyList)
    (same : f mp = g mp) : s.modifyProxy mp.id f = s.modifyProxy mp.id g := by
  have list : (s.modifyProxy mp.id f).managedProxyList = (s.modifyProxy mp.id g).managedProxyList := by
    apply List.map_congr_left
    intro q there
    by_cases here : q.id = mp.id
    · obtain rfl := distinct.unique mem there here
      rw [if_pos rfl, if_pos rfl, same]
    · rw [if_neg here, if_neg here]
  rw [modifyProxy, modifyProxy]
  exact congrArg (fun l => { s with managedProxyList := l }) list

theorem removeProxy_const (q : ManagedProxy) (same : q.id = id) :
    (s.modifyProxy id fun _ => q).removeProxy id = s.removeProxy id := by
  rw [removeProxy, removeProxy, modifyProxy]
  congr 1
  induction s.managedProxyList with
  | nil => rfl
  | cons mp l ih =>
      rw [List.map_cons]
      by_cases here : mp.id = id
      · rw [if_pos here, List.filter_cons_of_neg (by simp [same]), ih, List.filter_cons_of_neg (by simp [here])]
      · rw [if_neg here, List.filter_cons_of_pos (by simp [here]), ih, List.filter_cons_of_pos (by simp [here])]

def Known (bad : Fault → Prop) (s : Pt) (process : Option Nat) : Prop :=
  bad .useAfterFree → ∀ pid, process = some pid → ∃ p ∈ s.processes, p.id = pid

variable {bad : Fault → Prop}

theorem abandon_spec {process : Option Nat} (known : Known bad s process) :
    Safe bad (· = { s with processes := cutOff s.processes process }) (s.abandon process) := by
  rw [abandon]
  split
  · rfl
  · rename_i unknown
    intro fault
    apply unknown
    cases process with
    | none => rfl
    | some pid =>
        obtain ⟨p, mem, same⟩ := known fault pid rfl
        exact List.any_eq_true.mpr ⟨p, mem, decide_eq_true same⟩

/-- The state after `proxy_prepare_for_restart`. -/
def restarted (s : Pt) (mp : ManagedProxy) : Pt :=
  { s.modifyProxy mp.id (·.reset s.ptProxyUri) with
    processes := cutOff s.processes mp.process
    transportList := unregister s.transportList mp.transports
    unconfiguredProxiesN := s.unconfiguredProxiesN + if mp.confState = .completed then 1 else 0 }

theorem proxyPrepareForRestart_spec (known : Known bad s mp.process) :
    Safe bad (· = s.restarted mp) (s.proxyPrepareForRestart mp) := by
  apply (abandon_spec known).bind
  rintro t rfl
  by_cases finished : mp.confState = .completed
  · simp only [finished, if_true, restarted]
    rfl
  · simp only [finished, if_false, restarted, Int.add_zero]
    rfl

/-- The state after `managed_proxy_destroy`. -/
def destroyed (s : Pt) (mp : ManagedProxy) (process : Option Nat) : Pt :=
  { s.removeProxy mp.id with processes := cutOff s.processes process }

theorem managedProxyDestroy_spec (known : Known bad s mp.process) (alsoTerminateProcess : Bool) :
    Safe bad (· = s.destroyed mp (if alsoTerminateProcess then mp.process else none))
      (s.managedProxyDestroy mp alsoTerminateProcess) := by
  apply abandon_spec
  cases alsoTerminateProcess with
  | false =>
      intro _ pid none
      cases none
  | true => exact known

theorem proxyNeedsRestart_spec {uri : Option Text} (fine : ¬bad .nothingToLaunch) :
    Safe bad (fun _ => True) (proxyNeedsRestart uri mp) := by
  rw [proxyNeedsRestart]
  split
  · trivial
  · split
    · exact fine
    · trivial

/-- The state after `handle_finished_proxy` of a proxy that is kept. -/
def completed (s : Pt) (mp : ManagedProxy) : Pt :=
  { (s.registerProxy mp).modifyProxy mp.id (·.setState .completed) with
    unconfiguredProxiesN := s.unconfiguredProxiesN - 1 }

/-- The state after `handle_finished_proxy` of a proxy that is given up. -/
def givenUp (s : Pt) (mp : ManagedProxy) (process : Option Nat) : Pt :=
  { s.destroyed mp process with unconfiguredProxiesN := s.unconfiguredProxiesN - 1 }

theorem handleFinishedProxy_spec (known : Known bad s mp.process)
    (finished : proxyConfigurationFinished mp = true) :
    Safe bad (fun t => t = s.givenUp mp (if mp.confState = .failedLaunch then none else mp.process) ∨
      (mp.confState = .configured ∧ t = s.completed mp)) (s.handleFinishedProxy mp) := by
  rw [handleFinishedProxy]
  cases state : mp.confState with
  | broken =>
      apply (managedProxyDestroy_spec known true).bind
      rintro t rfl
      exact .inl rfl
  | failedLaunch =>
      apply (managedProxyDestroy_spec known false).bind
      rintro t rfl
      exact .inl rfl
  | configured =>
      rw [if_neg (by decide)]
      dsimp only
      split
      · apply (managedProxyDestroy_spec known true).bind
        rintro t rfl
        exact .inl rfl
      · exact .inr ⟨rfl, rfl⟩
  | infant | waiting | launched | acceptingMethods | completed =>
      rw [proxyConfigurationFinished, state] at finished
      cases finished

/-- The state after `launch_managed_proxy`. -/
def launched (s : Pt) (mp : ManagedProxy) (runs : Bool) : Pt :=
  { s.modifyProxy mp.id (·.launch s.nextProcess runs) with
    processes := s.processes ++ [⟨s.nextProcess, runs, some mp.id⟩]
    nextProcess := s.nextProcess + 1 }

theorem launchManagedProxy_spec (runs : Bool) (free : bad .process → mp.process = none) :
    Safe bad (· = s.launched mp runs) (s.launchManagedProxy mp runs) := by
  rw [launchManagedProxy]
  split
  · rename_i taken
    exact fun fault => taken (free fault)
  · rfl

end Pt

def isProtocolLine (line : Text) : Bool := (keyword line).any (·.expected.isSome)

inductive LineEffect (mp : ManagedProxy) : ManagedProxy → Prop
  | nothing : LineEffect mp mp
  | err : LineEffect mp (mp.setState .broken)
  | version (state : mp.confState = .launched) : LineEffect mp (mp.setState .acceptingMethods)
  | done (state : mp.confState = .acceptingMethods) : LineEffect mp (mp.setState .configured)
  | method (state : mp.confState = .acceptingMethods) (t : Transport) :
      LineEffect mp { mp with transports := mp.transports ++ [t] }
  | supported (state : mp.confState = .acceptingMethods) : LineEffect mp { mp with proxySupported := true }

theorem parseMethodLineHelper_spec {bad : Fault → Prop} (fine : ¬bad .methodName) (line : Text)
    (isSmethod : Bool) : Safe bad (fun _ => True) (parseMethodLineHelper line isSmethod) := by
  have trivially (x : Run (Option Transport)) (only : ∀ f, x = .error f → f = .methodName) :
      Safe bad (fun _ => True) x := by
    cases x with
    | ok a => trivial
    | error f =>
        obtain rfl := only f rfl
        exact fine
  apply trivially
  intro f failed
  unfold parseMethodLineHelper at failed
  dsimp only at failed
  repeat' split at failed
  all_goals first
    | exact (Except.error.inj failed).symm
    | cases failed

theorem handleProxyLine_spec {bad : Fault → Prop} (fine : ¬bad .methodName) (line : Text) (mp : ManagedProxy) :
    Safe bad (fun mp' => LineEffect mp mp' ∧ (isProtocolLine line = false → mp' = mp))
      (handleProxyLine line mp) := by
  rw [handleProxyLine, isProtocolLine]
  cases keyword line with
  | none => exact ⟨.nothing, fun _ => rfl⟩
  | some kw =>
      dsimp only [Option.any_some]
      cases expected : kw.expected with
      | none =>
          have other : kw = .log ∨ kw = .status := by
            cases kw <;> first | exact .inl rfl | exact .inr rfl | cases expected
          rcases other with rfl | rfl <;> exact ⟨.nothing, fun _ => rfl⟩
      | some state =>
          have protocol {P : Prop} (other : (some state).isSome = false) : P := by cases other
          dsimp only [Option.any_some]
          by_cases wrong : mp.confState = state
          · subst wrong
            rw [if_neg (by simp)]
            cases kw with
            | envError | negFail | proxyError => exact ⟨.err, protocol⟩
            | log | status => cases expected
            | negSuccess =>
                dsimp only
                split
                · exact ⟨.version (Option.some.inj expected).symm, protocol⟩
                · exact ⟨.err, protocol⟩
            | cmethodsDone | smethodsDone => exact ⟨.done (Option.some.inj expected).symm, protocol⟩
            | cmethodError | smethodError => exact ⟨.nothing, protocol⟩
            | proxyDone =>
                dsimp only
                split
                · exact ⟨.supported (Option.some.inj expected).symm, protocol⟩
                · exact ⟨.nothing, protocol⟩
            | cmethod | smethod =>
                apply (parseMethodLineHelper_spec fine _ _).bind
                rintro (_ | t) -
                · exact ⟨.err, protocol⟩
                · exact ⟨.method (Option.some.inj expected).symm t, protocol⟩
          · rw [if_pos (by simpa using Ne.symm wrong)]
            exact ⟨.err, protocol⟩

end TorJet.Transports
