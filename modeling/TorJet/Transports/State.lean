import TorJet.Net.Address

/-!
# Pluggable transports

The managed proxies, the processes they run in, and the registry of the transports that they and the
configuration provide. `smartlist_remove` is modelled without the move of the last element: nothing here
depends on the order of the lists.
-/

namespace TorJet.Transports
open Base Net

structure Transport where
  name : Text
  addr : TorAddr
  port : Nat
  markedForRemoval : Bool
  deriving DecidableEq

/-- `enum pt_proto_state` -/
inductive ProtoState
  | infant
  | waiting
  | launched
  | acceptingMethods
  | configured
  | completed
  | broken
  | failedLaunch
  deriving DecidableEq

/-- A `managed_proxy_t`; the number stands for its address. -/
structure ManagedProxy where
  id : Nat
  confState : ProtoState
  argv : List Text
  isServer : Bool
  transportsToLaunch : List Text
  transports : List Transport
  proxyUri : Option Text
  proxySupported : Bool
  process : Option Nat
  launchEv : Bool
  markedForRemoval : Bool
  wasAround : Bool
  deriving DecidableEq

/-- A `process_t` that has not been freed, with the proxy that its data points to. -/
structure Process where
  id : Nat
  running : Bool
  data : Option Nat
  deriving DecidableEq

/-- A `ClientTransportPlugin` or `ServerTransportPlugin` line that `pt_parse_transport_line` acts on. -/
inductive PluginLine
  | external (name : Text) (addr : TorAddr) (port : Nat)
  | managed (names : List Text) (argv : List Text) (isServer : Bool)
  deriving DecidableEq

inductive Fault
  | count
  | process
  | useAfterFree
  | finished
  | nothingToLaunch
  | methodName
  deriving DecidableEq

abbrev Run := Except Fault

section Registry
variable (l : List Transport)

def transportGetByName (name : Text) : Option Transport := l.find? (·.name = name)

def markTransportList : List Transport := l.map ({ · with markedForRemoval := true })

def sweepTransportList : List Transport := l.filter (!·.markedForRemoval)

/-- `transport_get_by_name`, and its result marked or not. -/
def markByName (name : Text) (marked : Bool) : List Transport :=
  match transportGetByName l name with
  | none => l
  | some found => l.map fun t => if t = found then { t with markedForRemoval := marked } else t

/-- `transport_add` with `transport_resolve_conflicts`; the caller frees what is not added. -/
def transportAdd (t : Transport) : List Transport :=
  match transportGetByName l t.name with
  | none => l ++ [t]
  | some old =>
      if t.addr = old.addr ∧ t.port = old.port then markByName l t.name false
      else if old.markedForRemoval then l.filter (· ≠ old) ++ [t]
      else l

/-- How `proxy_prepare_for_restart` takes the transports of a proxy out of the registry. -/
def unregister (transports : List Transport) : List Transport :=
  sweepTransportList (transports.foldl (fun l t => markByName l t.name true) l)

def register (transports : List Transport) : List Transport :=
  transports.foldl (fun l t => transportAdd l { t with markedForRemoval := false }) l

end Registry

structure Pt where
  managedProxyList : List ManagedProxy
  processes : List Process
  transportList : List Transport
  unconfiguredProxiesN : Int
  checkIfRestartsNeeded : Bool
  ptProxyUri : Option Text
  lines : List PluginLine
  nextProxy : Nat
  nextProcess : Nat
  deriving DecidableEq

def Pt.start : Pt where
  managedProxyList := []
  processes := []
  transportList := []
  unconfiguredProxiesN := 0
  checkIfRestartsNeeded := false
  ptProxyUri := none
  lines := []
  nextProxy := 0
  nextProcess := 0

def cutOff (l : List Process) (process : Option Nat) : List Process :=
  l.map fun p => if some p.id = process then { p with data := none } else p

namespace ManagedProxy
variable (mp : ManagedProxy)

/-- What `proxy_prepare_for_restart` sets in the proxy. -/
def reset (uri : Option Text) : ManagedProxy :=
  { mp with transports := [], proxyUri := uri, proxySupported := false, confState := .infant }

def setState (state : ProtoState) : ManagedProxy := { mp with confState := state }

/-- What `configure_proxy` sets, and what is left of it when the timer has fired. -/
def schedule : ManagedProxy := { mp with launchEv := true, confState := .waiting }

def fired : ManagedProxy := { mp with launchEv := false }

/-- What `launch_managed_proxy` sets. -/
def launch (pid : Nat) (runs : Bool) : ManagedProxy :=
  { mp with process := some pid, confState := if runs then .launched else mp.confState }

def leaveProcess : ManagedProxy := { mp with process := none }

def prepare : ManagedProxy :=
  { mp with markedForRemoval := true, wasAround := true, transportsToLaunch := [] }

def unmark : ManagedProxy := { mp with markedForRemoval := false }

/-- `add_transport_to_proxy` for a list of names. -/
def addTransports (names : List Text) : ManagedProxy :=
  { mp with transportsToLaunch := names.foldl (fun l n => if n ∈ l then l else l ++ [n]) mp.transportsToLaunch }

def checked : ManagedProxy := { mp with wasAround := false }

end ManagedProxy

namespace Pt

def findProxy (s : Pt) (id : Nat) : Option ManagedProxy := s.managedProxyList.find? (·.id = id)

def modifyProxy (s : Pt) (id : Nat) (f : ManagedProxy → ManagedProxy) : Pt :=
  { s with managedProxyList := s.managedProxyList.map fun mp => if mp.id = id then f mp else mp }

def removeProxy (s : Pt) (id : Nat) : Pt :=
  { s with managedProxyList := s.managedProxyList.filter (·.id ≠ id) }

/-- `process_set_data` and `process_terminate` of the process of a proxy, if it has one. It is left to the
exit event to free the process. -/
def abandon (s : Pt) (process : Option Nat) : Run Pt :=
  if process.all fun pid => s.processes.any (·.id = pid) then
    .ok { s with processes := cutOff s.processes process }
  else .error .useAfterFree

def freeProcess (s : Pt) (pid : Nat) : Pt := { s with processes := s.processes.filter (·.id ≠ pid) }

def assertUnconfiguredCountOk (s : Pt) : Run Unit :=
  if s.managedProxyList.countP (·.confState = .completed) + s.unconfiguredProxiesN = s.managedProxyList.length
  then .ok () else .error .count

def ptProxiesConfigurationPending (s : Pt) : Bool :=
  s.unconfiguredProxiesN ≠ 0 || s.checkIfRestartsNeeded

end Pt

/-- `proxy_needs_restart` under the outgoing proxy that is configured now. -/
def proxyNeedsRestart (uri : Option Text) (mp : ManagedProxy) : Run Bool :=
  if uri ≠ mp.proxyUri then .ok true
  else if mp.transportsToLaunch = [] then .error .nothingToLaunch
  else
    .ok (mp.confState ≠ .completed || mp.transportsToLaunch.length ≠ mp.transports.length ||
      mp.transports.any fun t => t.name ∉ mp.transportsToLaunch)

namespace Pt

def proxyPrepareForRestart (s : Pt) (mp : ManagedProxy) : Run Pt := do
  let s ← s.abandon mp.process
  let s := { s with transportList := unregister s.transportList mp.transports }
  let s := if mp.confState = .completed then { s with unconfiguredProxiesN := s.unconfiguredProxiesN + 1 } else s
  return s.modifyProxy mp.id (·.reset s.ptProxyUri)

def managedProxyDestroy (s : Pt) (mp : ManagedProxy) (alsoTerminateProcess : Bool) : Run Pt :=
  (s.removeProxy mp.id).abandon (if alsoTerminateProcess then mp.process else none)

/-- `register_proxy`; a server proxy is only written to the state file. -/
def registerProxy (s : Pt) (mp : ManagedProxy) : Pt :=
  { s with transportList := if mp.isServer then s.transportList else register s.transportList mp.transports }

def handleFinishedProxy (s : Pt) (mp : ManagedProxy) : Run Pt := do
  let s ← match mp.confState with
    | .broken => s.managedProxyDestroy mp true
    | .failedLaunch => s.managedProxyDestroy mp false
    | .configured =>
        if mp.proxyUri.isSome && !mp.proxySupported then s.managedProxyDestroy mp true
        else pure ((s.registerProxy mp).modifyProxy mp.id (·.setState .completed))
    | _ => .error .finished
  return { s with unconfiguredProxiesN := s.unconfiguredProxiesN - 1 }

end Pt

def proxyConfigurationFinished (mp : ManagedProxy) : Bool :=
  mp.confState = .configured || mp.confState = .broken || mp.confState = .failedLaunch

namespace Pt

/-- `launch_managed_proxy`; `runs` is whether `process_exec` succeeds. -/
def launchManagedProxy (s : Pt) (mp : ManagedProxy) (runs : Bool) : Run Pt :=
  if mp.process ≠ none then .error .process
  else
    let p : Process := ⟨s.nextProcess, runs, some mp.id⟩
    let s := { s with processes := s.processes ++ [p], nextProcess := s.nextProcess + 1 }
    .ok (s.modifyProxy mp.id (·.launch p.id runs))

def launchProxyEv (s : Pt) (id : Nat) (runs : Bool) : Run Pt :=
  match s.findProxy id with
  | none => .error .useAfterFree
  | some mp => do
      let s := s.modifyProxy id (·.fired)
      if mp.confState ≠ .waiting then return s
      let s ← s.launchManagedProxy mp runs
      if runs then return s
      s.handleFinishedProxy (mp.setState .failedLaunch)

def configureProxy (s : Pt) (mp : ManagedProxy) : Run Pt :=
  if mp.confState = .infant then
    .ok (s.modifyProxy mp.id (·.schedule))
  else if mp.process = none then .error .process
  else .ok s

/-- The loop body of `pt_configure_remaining_proxies`. -/
def configureRemaining (s : Pt) (id : Nat) : Run Pt :=
  match s.findProxy id with
  | none => .error .useAfterFree
  | some mp =>
      if mp.confState = .broken ∨ mp.confState = .failedLaunch then .error .finished
      else if mp.wasAround then do
        let s := s.modifyProxy id (·.checked)
        if ← proxyNeedsRestart s.ptProxyUri mp then s.proxyPrepareForRestart mp else return s
      else if proxyConfigurationFinished mp then .ok s
      else s.configureProxy mp

def ptConfigureRemainingProxies (s : Pt) : Run Pt := do
  let tmp := s.managedProxyList.map (·.id)
  s.assertUnconfiguredCountOk
  let s ← tmp.foldlM configureRemaining s
  let s := { s with checkIfRestartsNeeded := false }
  s.assertUnconfiguredCountOk
  return s

end Pt
end TorJet.Transports
