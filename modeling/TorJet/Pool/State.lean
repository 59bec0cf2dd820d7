import TorJet.Conflux.System

/-!
# The conflux pools of one side

The linked and unlinked pools with the circuits and the `conflux_t` objects they refer to. Objects
live in a heap, so that a pointer can outlive what it points to; every function that follows such a
pointer may fault. Client and relay pools are disjoint, and one state is the pools of one side.
-/

namespace TorJet.Pool
open Smartlist Base

abbrev CfxId := Nat

abbrev RelayId := Nat

inductive Purpose
  | confluxUnlinked | confluxLinked | other
  deriving DecidableEq, Repr

structure Path where
  exit : RelayId
  guard : RelayId
  middle : RelayId
  deriving DecidableEq, Repr

/-- A circuit; `launchedFor` records the nonce for which `conflux_launch_leg` built it. -/
structure Circ where
  conflux : Option CfxId
  pendingNonce : Option Nonce
  purpose : Purpose
  marked : Bool
  freed : Bool
  launchedFor : Option Nonce
  path : Option Path
  deriving DecidableEq, Repr

def Circ.plain : Circ where
  conflux := none
  pendingNonce := none
  purpose := .other
  marked := false
  freed := false
  launchedFor := none
  path := none

/-- What the pools read of a `conflux_t`. -/
structure Cfx where
  nonce : Nonce
  legs : List CircId
  numLegLaunch : Nat
  inFullTeardown : Bool
  deriving DecidableEq, Repr

structure Leg where
  circ : CircId
  linked : Bool
  deriving DecidableEq, Repr

/-- `unlinked_circuits_t`; `id` tells two objects for one nonce apart. -/
structure Unlinked where
  id : Nat
  cfx : CfxId
  isForLinkedSet : Bool
  legs : List Leg
  deriving DecidableEq, Repr

def Unlinked.circs (u : Unlinked) : List CircId := u.legs.map (·.circ)

inductive Fault
  | danglingConflux
  | danglingUnlinked
  | notForLinkedSet
  | wrongPurpose
  | noExit
  deriving DecidableEq, Repr

/-- `nonces` are the keys the pools have had, and `global` the circuits there have been. -/
structure Pools where
  side : Side
  circs : CircId → Circ
  global : List CircId
  cfxs : CfxId → Option Cfx
  nextCfx : Nat
  linked : Nonce → Option CfxId
  unlinked : Nonce → Option Unlinked
  nextSet : Nat
  nonces : List Nonce
  shuttingDown : Bool
  pressure : Bool

inductive Frame
  | markForClose (c : CircId)
  | markAllForClose (n : Nonce)
  | markLinkedForClose (n : Nonce)
  | afterClose (c : CircId) (n : Nonce)
  | launchLeg (n : Nonce)
  | establish (n : Nonce) (set : Nat) (c : CircId)
  | addLeg (n : Nonce) (set : Nat) (c : CircId)
  | setPurpose (c : CircId)
  deriving DecidableEq, Repr

abbrev Outcome := Except Fault (Pools × List Frame)

namespace Pools
variable (d : Pools)

def modifyCirc (c : CircId) (f : Circ → Circ) : Pools :=
  { d with circs := Function.update d.circs c (f (d.circs c)) }

def setCfx (id : CfxId) (x : Option Cfx) : Pools := { d with cfxs := Function.update d.cfxs id x }

def setLinked (n : Nonce) (id : Option CfxId) : Pools :=
  { d with linked := Function.update d.linked n id }

def setUnlinked (n : Nonce) (u : Option Unlinked) : Pools :=
  { d with unlinked := Function.update d.unlinked n u }

def getCfx (id : CfxId) : Except Fault Cfx :=
  match d.cfxs id with
  | some x => .ok x
  | none => .error .danglingConflux

def freeCfx (id : CfxId) : Except Fault Pools := do
  let _ ← d.getCfx id
  return d.setCfx id none

def mayLaunch : Bool := d.side = .client && !d.shuttingDown && !d.pressure

def unlinkedPoolDelAndFree (u : Unlinked) : Except Fault Pools := do
  let x ← d.getCfx u.cfx
  let d := d.setUnlinked x.nonce none
  if u.isForLinkedSet then return d else d.freeCfx u.cfx

/-- `unlinked_get_or_create`. The object that `unlinked_new` allocates and that is freed at once where
a linked set exists is left out. -/
def unlinkedGetOrCreate (n : Nonce) : Pools × Unlinked :=
  match d.unlinked n with
  | some u => (d, u)
  | none =>
      let u : Unlinked :=
        match d.linked n with
        | some id => { id := d.nextSet, cfx := id, isForLinkedSet := true, legs := [] }
        | none => { id := d.nextSet, cfx := d.nextCfx, isForLinkedSet := false, legs := [] }
      let cfxs :=
        match d.linked n with
        | some _ => d.cfxs
        | none => Function.update d.cfxs d.nextCfx
            (some { nonce := n, legs := [], numLegLaunch := 0, inFullTeardown := false })
      ({ d with
          cfxs := cfxs
          nextCfx := d.nextCfx + 1
          nextSet := d.nextSet + 1
          nonces := n :: d.nonces
          unlinked := Function.update d.unlinked n (some u) }, u)

/-! ## Closing -/

def unlinkedCircuitClosed (c : CircId) (n : Nonce) : Outcome :=
  match d.unlinked n with
  | none => return (d, [])
  | some u => do
      let d := if c ∈ u.circs then d.modifyCirc c fun x => { x with pendingNonce := none } else d
      let u := { u with legs := remove (fun leg => leg.circ = c) u.legs }
      if u.legs.isEmpty then return (← d.unlinkedPoolDelAndFree u, [])
      else return (d.setUnlinked n (some u), if d.mayLaunch then [.launchLeg n] else [])

/-- `cfx_del_leg` as the pools see it: `full` is what it finds in the counters of the traffic. -/
def cfxDelLeg (x : Cfx) (c : CircId) (full : Bool) : Cfx × Bool :=
  if c ∈ x.legs then
    ({ x with
        legs := remove (fun leg => leg = c) x.legs
        numLegLaunch := if full then x.numLegLaunch else x.numLegLaunch - 1 }, full)
  else (x, false)

/-- `linked_circuit_closed` up to the teardown of the other legs. -/
def linkedCircuitClosed (c : CircId) (id : CfxId) (full : Bool) : Outcome := do
  let (x, full) := cfxDelLeg (← d.getCfx id) c full
  let rest := (if full then [Frame.markAllForClose x.nonce] else []) ++ [.afterClose c x.nonce]
  let d := d.setCfx id (some x)
  if !x.legs.isEmpty then
    return (d.modifyCirc c fun y => { y with conflux := none }, rest)
  else
    let d := d.setLinked x.nonce none
    match d.unlinked x.nonce with
    | none => return (d, rest)
    | some u =>
        if u.cfx = id then
          -- the unlinked set takes the object over
          let d := d.setUnlinked x.nonce (some { u with isForLinkedSet := false })
          return (d.modifyCirc c fun y => { y with conflux := none }, rest)
        else return (d, rest)

/-- The part of `linked_circuit_closed` that makes a new unlinked set adopt the object of the circuit. -/
def rebuild (c : CircId) (n : Nonce) (id : CfxId) : Except Fault Pools := do
  let (d, u) := d.unlinkedGetOrCreate n
  let d ← if u.legs.isEmpty then
      (d.setUnlinked n (some { u with cfx := id, isForLinkedSet := false })).freeCfx u.cfx
    else pure d
  return d.modifyCirc c fun y => { y with conflux := none }

/-- The end of `linked_circuit_closed`: the set is refilled, or rebuilt under its nonce. -/
def afterClose (c : CircId) (n : Nonce) : Outcome :=
  if d.mayLaunch then
    match d.linked n with
    | some id => do
        let x ← d.getCfx id
        return (d, if !x.legs.isEmpty && !x.inFullTeardown then [.launchLeg n] else [])
    | none =>
        match (d.circs c).conflux with
        | none => return (d, [])
        | some id => do
            let x ← d.getCfx id
            if x.inFullTeardown then return (d, []) else return (← d.rebuild c n id, [.launchLeg n])
  else return (d, [])

def circuitHasClosed (c : CircId) (full : Bool) : Outcome :=
  match (d.circs c).pendingNonce with
  | some n => d.unlinkedCircuitClosed c n
  | none =>
      match (d.circs c).conflux with
      | some id => d.linkedCircuitClosed c id full
      | none => return (d, [])

def markForClose (c : CircId) (full : Bool) : Outcome :=
  if (d.circs c).marked then return (d, [])
  else (d.modifyCirc c fun x => { x with marked := true }).circuitHasClosed c full

/-- The first half of `conflux_mark_all_for_close`: the unlinked set. -/
def markAllForClose (n : Nonce) : Outcome :=
  match d.unlinked n with
  | none => return (d, [.markLinkedForClose n])
  | some u => do
      if u.legs.isEmpty then return (← d.unlinkedPoolDelAndFree u, [.markLinkedForClose n])
      else return (d, u.circs.map .markForClose ++ [.markLinkedForClose n])

def markLinkedForClose (n : Nonce) : Outcome :=
  match d.linked n with
  | none => return (d, [])
  | some id => do
      let x ← d.getCfx id
      if x.inFullTeardown then return (d, [])
      else return (d.setCfx id (some { x with inFullTeardown := true }), x.legs.map .markForClose)

/-! ## Launching -/

def getExitForNonce (n : Nonce) : Except Fault (Option RelayId) :=
  match d.linked n with
  | some id => do
      let x ← d.getCfx id
      match x.legs with
      | [] => throw .noExit
      | c :: _ => exitOf c
  | none =>
      match d.unlinked n with
      | none => return none
      | some u =>
          match u.legs with
          | [] => return none
          | leg :: _ => exitOf leg.circ
where
  exitOf (c : CircId) : Except Fault (Option RelayId) :=
    match (d.circs c).path with
    | none => throw .noExit
    | some path => return some path.exit

/-- The first part of `conflux_launch_leg`, with the circuit that
`circuit_establish_circuit_conflux` creates for it. The path is what path selection comes up with, or
none where it fails; it ends at the exit it was given. `none` refuses a path with another exit. -/
def launchLeg (p : Params) (n : Nonce) (c : CircId) (path : Option Path) : Except Fault (Option (Pools × List Frame)) := do
  let (d, u) := d.unlinkedGetOrCreate n
  let x ← d.getCfx u.cfx
  if p.numLegsSet + p.maxUnlinkedLegRetry ≤ x.numLegLaunch then return some (d, [])
  else
    let exit ← d.getExitForNonce n
    let d := d.setCfx u.cfx (some { x with numLegLaunch := x.numLegLaunch + 1 })
    let circ : Circ := { Circ.plain with
      pendingNonce := some n, purpose := .confluxUnlinked, launchedFor := some n, path := path }
    let d := { d with circs := Function.update d.circs c circ, global := c :: d.global }
    match path with
    | none => return some (d, [.markForClose c, .addLeg n u.id c])
    | some path =>
        if exit.all (· = path.exit) then return some (d, [.establish n u.id c]) else return none

/-- The end of `conflux_launch_leg`, once the circuit is established. -/
def addLeg (n : Nonce) (set : Nat) (c : CircId) : Outcome :=
  if (d.circs c).marked then return (d, [])
  else
    match d.unlinked n with
    | none => throw .danglingUnlinked
    | some u => do
        if u.id ≠ set then throw .danglingUnlinked
        let _ ← d.getCfx u.cfx
        if (d.circs c).pendingNonce.isNone then return (d, [])
        else
          let u := { u with legs := u.legs ++ [{ circ := c, linked := false }] }
          return (d.setUnlinked n (some u), [])

/-! ## Linking -/

/-- The loop of `try_finalize_set` and what follows it. -/
def finalizeSet (u : Unlinked) (x : Cfx) : Pools :=
  { d with
    circs := fun c =>
      if c ∈ u.circs then
        { d.circs c with
          conflux := some u.cfx
          pendingNonce := none
          purpose := if d.side = .client then .confluxLinked else (d.circs c).purpose }
      else d.circs c
    cfxs := Function.update d.cfxs u.cfx (some { x with
      legs := x.legs ++ (drained u.legs).map (·.circ), numLegLaunch := 0 })
    linked := Function.update d.linked x.nonce (some u.cfx)
    unlinked := Function.update d.unlinked x.nonce none }

/-- `conflux_process_linked` on a circuit with a pending nonce: `timely` is the test of the RTT and
`valid` what `validate_unlinked_legs` finds in the numbers of the cells. -/
def processLinked (p : Params) (c : CircId) (timely valid : Bool) : Outcome :=
  match (d.circs c).pendingNonce.bind fun n => (d.unlinked n).map (n, ·) with
  | none => return (d, [.markForClose c])
  | some (n, u) =>
      if c ∉ u.circs || !timely then return (d, [.markForClose c])
      else do
        let u := { u with legs := u.legs.map fun leg => if leg.circ = c then { leg with linked := true } else leg }
        let x ← d.getCfx u.cfx
        if p.maxLegsSet < u.legs.length + x.legs.length then return (d.setUnlinked n (some u), [])
        else if !valid then return (d.setUnlinked n (some u), [.markAllForClose n])
        else if !u.legs.all (·.linked) then return (d.setUnlinked n (some u), [])
        else return (d.finalizeSet u x, [])

/-- `conflux_process_link`. The leg counts as linked at once; where it is refused, closing its circuit
takes it out of the unlinked set again. -/
def processLink (p : Params) (c : CircId) (n : Nonce) (valid : Bool) : Outcome :=
  if (d.circs c).pendingNonce.isSome || (d.circs c).conflux.isSome then return (d, [.markForClose c])
  else do
    let (d, u) := d.unlinkedGetOrCreate n
    let d := d.modifyCirc c fun y => { y with pendingNonce := some n }
    let u := { u with legs := u.legs ++ [{ circ := c, linked := true }] }
    let d := d.setUnlinked n (some u)
    let x ← d.getCfx u.cfx
    if p.maxLegsSet < u.legs.length + x.legs.length then d.markForClose c false
    else if !valid then
      let (d, frames) ← d.markForClose c false
      return (d, frames ++ [.markLinkedForClose n])
    else if !u.legs.all (·.linked) then return (d, [])
    else return (d.finalizeSet u x, [])

/-! ## Freeing -/

def linkedCircuitFree (c : CircId) (id : CfxId) (full : Bool) : Except Fault Pools := do
  let x ← d.getCfx id
  if d.side = .client && (d.circs c).purpose ≠ .confluxLinked then throw .wrongPurpose
  let (x, torn) := cfxDelLeg x c full
  let d := d.setCfx id (some { x with inFullTeardown := x.inFullTeardown || torn })
  if !x.legs.isEmpty then return d
  else
    let d := d.setLinked x.nonce none
    match d.unlinked x.nonce with
    | none => d.freeCfx id
    | some u =>
        if u.isForLinkedSet then return d.setUnlinked x.nonce (some { u with isForLinkedSet := false })
        else throw .notForLinkedSet

/-- `conflux_circuit_about_to_free`. The leg of an unlinked circuit that is freed without being closed
loses its pointer to it, which nothing reads any more. -/
def circuitAboutToFree (c : CircId) (full : Bool) : Except Fault Pools := do
  let d ← match (d.circs c).conflux with
    | some id => d.linkedCircuitFree c id full
    | none =>
        if (d.circs c).pendingNonce.isSome && d.side = .client &&
          (d.circs c).purpose ≠ .confluxUnlinked then throw .wrongPurpose
        else pure d
  return d.modifyCirc c fun y => { y with conflux := none, pendingNonce := none, freed := true }

def freeLinkedEntry (n : Nonce) : Except Fault Pools :=
  match d.linked n with
  | none => return d
  | some id => (d.setLinked n none).freeCfx id

def freeUnlinkedEntry (n : Nonce) : Except Fault Pools :=
  match d.unlinked n with
  | none => return d
  | some u => d.unlinkedPoolDelAndFree u

def poolFreeAll : Except Fault Pools := do
  let d ← d.nonces.foldlM freeLinkedEntry d
  d.nonces.foldlM freeUnlinkedEntry d

def getNonce (c : CircId) : Option Nonce :=
  match (d.circs c).conflux with
  | some id => (d.cfxs id).map (·.nonce)
  | none => (d.circs c).pendingNonce

def isOpen (c : CircId) : Bool := c ∈ d.global && !(d.circs c).marked && !(d.circs c).freed

end Pools

inductive Phase
  | running
  | exiting
  | done
  deriving DecidableEq, Repr

structure State where
  pools : Pools
  stack : List Frame
  phase : Phase
  fault : Option Fault

inductive Event
  | launchSet (n : Nonce)
  | add (n : Nonce)
  | close (c : CircId)
  | closeSet (n : Nonce)
  | repurpose (c : CircId) (full : Bool)
  | recvLinked (c : CircId) (timely valid : Bool)
  | recvLink (c : CircId) (n : Nonce) (valid : Bool)
  | free (c : CircId) (full : Bool)
  | pressure (under : Bool)
  | shutdown
  | exit
  | poolFreeAll
  | run (full : Bool)
  | build (c : CircId) (path : Option Path)
  | oom (c : CircId)
  | buildFails
  | built
  deriving DecidableEq, Repr

namespace State
variable (p : Params) (s : State)

def resume (rest : List Frame) : Outcome → State
  | .ok (d, frames) => { s with pools := d, stack := frames ++ rest }
  | .error fault => { s with fault := some fault }

def finish (phase : Phase) : Except Fault Pools → State
  | .ok d => { s with pools := d, phase := phase }
  | .error fault => { s with fault := some fault }

def call : Event → Option State
  | .launchSet n =>
      if s.pools.side = .client ∧ s.phase = .running ∧ n ∉ s.pools.nonces then
        some { s with stack := [.launchLeg n] }
      else none
  | .add n =>
      if s.pools.side = .client ∧ s.phase = .running ∧
        s.pools.global.any (fun c => s.pools.isOpen c && s.pools.getNonce c = some n) then
        some { s with stack := [.launchLeg n] }
      else none
  | .close c =>
      if s.phase = .running ∧ s.pools.isOpen c then some { s with stack := [.markForClose c] } else none
  | .closeSet n =>
      if s.phase = .running then some { s with stack := [.markAllForClose n] } else none
  | .repurpose c full =>
      if s.pools.side = .client ∧ s.phase = .running ∧ s.pools.isOpen c then
        some (s.resume [.setPurpose c] (s.pools.circuitHasClosed c full))
      else none
  | .recvLinked c timely valid =>
      if s.pools.side = .client ∧ s.phase = .running ∧ s.pools.isOpen c then
        some (s.resume [] (s.pools.processLinked p c timely valid))
      else none
  | .recvLink c n valid =>
      if s.pools.side = .exit ∧ s.phase = .running ∧ (c ∉ s.pools.global ∨ s.pools.isOpen c) then
        let d := if c ∈ s.pools.global then s.pools else { s.pools with global := c :: s.pools.global }
        some (s.resume [] (d.processLink p c n valid))
      else none
  | .free c full =>
      if c ∈ s.pools.global ∧ (s.pools.circs c).freed = false ∧
        (s.phase = .running ∧ (s.pools.circs c).marked ∨ s.phase = .exiting) then
        some (s.finish s.phase (s.pools.circuitAboutToFree c full))
      else none
  | .pressure under =>
      if s.phase = .running then some { s with pools := { s.pools with pressure := under } } else none
  | .shutdown => some { s with pools := { s.pools with shuttingDown := true } }
  | .exit => if s.phase = .running then some { s with phase := .exiting } else none
  | .poolFreeAll =>
      if s.phase = .exiting ∧ s.pools.global.all (fun c => (s.pools.circs c).freed) then
        some (s.finish .done s.pools.poolFreeAll)
      else none
  | .run _ | .build .. | .oom _ | .buildFails | .built => none

def continueWith (rest : List Frame) : Frame → Event → Option State
  | .markForClose c, .run full => some (s.resume rest (s.pools.markForClose c full))
  | .markAllForClose n, .run _ => some (s.resume rest (s.pools.markAllForClose n))
  | .markLinkedForClose n, .run _ => some (s.resume rest (s.pools.markLinkedForClose n))
  | .afterClose c n, .run _ => some (s.resume rest (s.pools.afterClose c n))
  | .launchLeg n, .build c path =>
      if c ∈ s.pools.global then none
      else match s.pools.launchLeg p n c path with
        | .ok none => none
        | .ok (some r) => some (s.resume rest (.ok r))
        | .error fault => some { s with fault := some fault }
  | .establish n set c, .oom other =>
      if s.pools.isOpen other then
        some { s with
          pools := { s.pools with pressure := true }
          stack := .markForClose other :: .establish n set c :: rest }
      else none
  | .establish n set c, .buildFails => some { s with stack := .markForClose c :: .addLeg n set c :: rest }
  | .establish n set c, .built => some { s with stack := .addLeg n set c :: rest }
  | .addLeg n set c, .run _ => some (s.resume rest (s.pools.addLeg n set c))
  | .setPurpose c, .run _ =>
      some { s with
        pools := s.pools.modifyCirc c fun y => { y with purpose := .other }
        stack := rest }
  | _, _ => none

def step (e : Event) : Option State :=
  if s.fault.isSome then none
  else match s.stack with
    | [] => s.call p e
    | frame :: rest => s.continueWith p rest frame e

def machine : Machine State Event where
  step s e := step p s e

def initial (side : Side) : State where
  pools :=
    { side := side
      circs := fun _ => .plain
      global := []
      cfxs := fun _ => none
      nextCfx := 0
      linked := fun _ => none
      unlinked := fun _ => none
      nextSet := 0
      nonces := []
      shuttingDown := false
      pressure := false }
  stack := []
  phase := .running
  fault := none

end State
end TorJet.Pool
