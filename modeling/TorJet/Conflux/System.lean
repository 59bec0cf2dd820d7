import Mathlib.Logic.Function.Basic
import TorJet.Base.Machine
import TorJet.Conflux.Receive

/-!
# Two endpoints of one conflux set

A client and an exit share the circuits of one nonce. Each circuit is a FIFO channel in both
directions; everything the environment decides (congestion state, clocks, when a cell arrives, when
a circuit is closed or opened) is an event.
-/

namespace TorJet
open Smartlist Base

inductive Side
  | client | exit
  deriving DecidableEq, Repr

def Side.peer : Side → Side
  | .client => .exit
  | .exit => .client

@[simp] theorem Side.peer_peer (s : Side) : s.peer.peer = s := by cases s <;> rfl

theorem Side.peer_ne (s : Side) : s.peer ≠ s := by cases s <;> decide

inductive Cell
  | relay (m : RelayMsg)
  | switch (relativeSeq : Nat)
  | link (l : LinkCell)
  | linked (l : LinkCell)
  | linkedAck
  deriving DecidableEq, Repr

/-- One end of the set. `sent` and `released` record the multiplexed messages of the present set,
`retired` the counters of legs that were closed, and `closes` every close this end decided on. Once
`closed` is set the whole set has been torn down and the rest of the record no longer changes. -/
structure Endpoint where
  cfx : Conflux
  unlinked : List PendingLeg
  net : CircId → CircState
  closed : Bool
  sent : List RelayMsg
  released : List RelayMsg
  retired : List ConfluxLeg
  closes : List (CircId × CloseReason)

structure World where
  ep : Side → Endpoint
  chan : Side → CircId → List Cell

namespace Endpoint

def pending (ep : Endpoint) : List CircId := ep.unlinked.map (·.circ)

def getPending (ep : Endpoint) (circ : CircId) : Option PendingLeg :=
  ep.unlinked.find? (·.circ = circ)

/-- `conflux_mark_all_for_close`: the set is gone. -/
def teardown (ep : Endpoint) (circ : CircId) (why : CloseReason) : Endpoint :=
  { ep with closed := true, closes := (circ, why) :: ep.closes }

def unlinkedCircuitClosed (ep : Endpoint) (circ : CircId) (why : CloseReason) : Endpoint :=
  let legs := remove (fun leg => leg.circ = circ) ep.unlinked
  if legs.isEmpty && ep.cfx.legs.isEmpty then ep.teardown circ why
  else { ep with unlinked := legs, closes := (circ, why) :: ep.closes }

def survivesClose (side : Side) (mayLaunch : Bool) (ep : Endpoint) (circ : CircId) : Bool :=
  let (cfx, full) := cfxDelLeg (ep.net circ).cc ep.cfx circ
  if cfx.legs.isEmpty && ep.unlinked.isEmpty then side = .client && mayLaunch else !full

def linkedCircuitClosed (side : Side) (mayLaunch : Bool) (ep : Endpoint) (leg : ConfluxLeg)
    (why : CloseReason) : Endpoint :=
  if ep.survivesClose side mayLaunch leg.circ then
    { ep with
      cfx := (cfxDelLeg (ep.net leg.circ).cc ep.cfx leg.circ).1
      retired := leg :: ep.retired
      closes := (leg.circ, why) :: ep.closes }
  else ep.teardown leg.circ why

/-- `circuit_mark_for_close` on a circuit of the set. -/
def closeCirc (side : Side) (mayLaunch : Bool) (ep : Endpoint) (circ : CircId) (why : CloseReason) :
    Endpoint :=
  if (ep.getPending circ).isSome then ep.unlinkedCircuitClosed circ why
  else match ep.cfx.getLeg circ with
    | none => ep
    | some leg => ep.linkedCircuitClosed side mayLaunch leg why

def fresh (ep : Endpoint) (nonce : Nonce) : Endpoint :=
  { ep with
    cfx := .new nonce
    unlinked := []
    closed := false
    sent := []
    released := []
    retired := ep.cfx.legs ++ ep.retired }

/-- `unlinked_get_or_create` for a LINK. -/
def getOrCreate (ep : Endpoint) (nonce : Nonce) : Endpoint :=
  if ep.closed then ep.fresh nonce else ep

end Endpoint

section Cells
variable (p : Params) (side : Side) (mayLaunch : Bool) (now : Nat)

/-- `connection_edge_process_relay_cell` for a message on a circuit. Messages that are not
multiplexed, or that arrive on a circuit not yet in the set, bypass the set. `budget` cuts the
dequeue loop short where the handler of a message fails. -/
def recvRelay (budget : Option Nat) (ep : Endpoint) (circ : CircId) (m : RelayMsg) : Endpoint :=
  if (ep.cfx.getLeg circ).isNone || !m.command.shouldMultiplex then ep
  else match processRelayMsg p ep.cfx circ m with
    | (cfx, .inOrder) =>
        let (cfx, msgs) := dequeueLoop p (budget.getD cfx.oooQ.length) cfx
        { ep with cfx := cfx, released := ep.released ++ m :: msgs }
    | (cfx, .queued) => { ep with cfx := cfx }
    | (cfx, .close why) => { ep with cfx := cfx }.closeCirc side mayLaunch circ why

def recvSwitch (ep : Endpoint) (circ : CircId) (relativeSeq : Nat) : Endpoint :=
  if (ep.cfx.getLeg circ).isSome then
    { ep with cfx := processSwitchCommand ep.cfx circ relativeSeq }
  else ep.closeCirc side mayLaunch circ .noConflux

def processLink (ep : Endpoint) (circ : CircId) (link : LinkCell) : Endpoint × List Cell :=
  if side = .client then (ep.closeCirc side mayLaunch circ .wrongSide, [])
  else if (ep.getPending circ).isSome || (ep.cfx.getLeg circ).isSome then
    (ep.closeCirc side mayLaunch circ .alreadyLinked, [])
  else
    let ep := ep.getOrCreate link.nonce
    let leg := { legNew circ link with linkSentUsec := now, linked := true }
    let linked := newLink link.nonce ep.cfx.getMaxSeqSent ep.cfx.lastSeqDelivered .minLatency
    match tryFinalizeSet p ep.cfx (ep.unlinked ++ [leg]) with
    | .linked cfx => ({ ep with cfx := cfx, unlinked := [] }, [.linked linked])
    | .waiting => ({ ep with unlinked := ep.unlinked ++ [leg] }, [.linked linked])
    | .invalidLegs => (ep.teardown circ .invalidLegs, [])
    | .tooManyLegs | .missingLeg =>
        (if ep.cfx.legs.isEmpty && ep.unlinked.isEmpty then ep.teardown circ .tooManyLegs
          else { ep with closes := (circ, .tooManyLegs) :: ep.closes }, [])

/-- The leg after `record_rtt_client`, unless the RTT is refused. -/
def recordRttClient (leg : PendingLeg) : Option PendingLeg :=
  if leg.linkSentUsec = 0 then none
  else if p.buildTimeoutUsec ≤ now - leg.linkSentUsec then none
  else some { leg with rttUsec := now - leg.linkSentUsec, linked := true }

def processLinked (ep : Endpoint) (circ : CircId) (link : LinkCell) : Endpoint × List Cell :=
  if side = .exit then (ep.closeCirc side mayLaunch circ .wrongSide, [])
  else match ep.getPending circ with
    | none => (ep.closeCirc side mayLaunch circ .alreadyLinked, [])
    | some leg =>
        if link.nonce ≠ leg.link.nonce then (ep.closeCirc side mayLaunch circ .invalidLegs, [])
        else match recordRttClient p now { leg with link := link } with
          | none => (ep.closeCirc side mayLaunch circ .badRtt, [])
          | some leg =>
              let legs := ep.unlinked.map fun l => if l.circ = circ then leg else l
              match tryFinalizeSet p ep.cfx legs with
              | .linked cfx => ({ ep with cfx := cfx, unlinked := [] }, [.linkedAck])
              | .waiting | .tooManyLegs => ({ ep with unlinked := legs }, [.linkedAck])
              | .invalidLegs => (ep.teardown circ .invalidLegs, [])
              | .missingLeg => (ep.closeCirc side mayLaunch circ .invalidLegs, [])

def recordRttExit (leg : ConfluxLeg) : ConfluxLeg :=
  { leg with circRttsUsec :=
      if leg.linkedSentUsec = 0 ∨ now - leg.linkedSentUsec = 0 then uint64Max
      else now - leg.linkedSentUsec }

def processLinkedAck (ep : Endpoint) (circ : CircId) : Endpoint :=
  if side = .client then ep.closeCirc side mayLaunch circ .wrongSide
  else if (ep.cfx.getLeg circ).isSome then
    { ep with cfx := ep.cfx.modifyLeg circ (recordRttExit now) }
  else ep.closeCirc side mayLaunch circ .noConflux

def recvCell (budget : Option Nat) (ep : Endpoint) (circ : CircId) : Cell → Endpoint × List Cell
  | .relay m => (recvRelay p side mayLaunch budget ep circ m, [])
  | .switch relativeSeq => (recvSwitch side mayLaunch ep circ relativeSeq, [])
  | .link link => processLink p side mayLaunch now ep circ link
  | .linked link => processLinked p side mayLaunch now ep circ link
  | .linkedAck => (processLinkedAck side mayLaunch now ep circ, [])

end Cells

def RelayCommand.isConflux : RelayCommand → Bool
  | .confluxLink | .confluxLinked | .confluxLinkedAck | .confluxSwitch => true
  | _ => false

def sendMsg (p : Params) (ep : Endpoint) (origCirc : CircId) (m : RelayMsg) :
    Endpoint × CircId × List Cell :=
  match decideCircForSend p ep.net ep.cfx origCirc m.command with
  | (cfx, .nothing) => ({ ep with cfx := cfx }, origCirc, [])
  | (cfx, .on circ) => (packaged cfx circ, circ, [.relay m])
  | (cfx, .switchTo circ relativeSeq) =>
      (packaged cfx circ, circ, [.switch relativeSeq, .relay m])
  | (_, .closeSet why) => (ep.teardown origCirc why, origCirc, [])
where
  packaged (cfx : Conflux) (circ : CircId) : Endpoint :=
    { ep with
      cfx := noteCellSent cfx circ m.command
      sent := if m.command.shouldMultiplex then ep.sent ++ [m] else ep.sent }

/-- `conflux_launch_leg` once a circuit has been established for it. -/
def launchLeg (p : Params) (ep : Endpoint) (circ : CircId) : Option Endpoint :=
  if p.numLegsSet + p.maxUnlinkedLegRetry ≤ ep.cfx.numLegLaunch then none
  else
    let link := newLink ep.cfx.nonce ep.cfx.getMaxSeqSent ep.cfx.lastSeqDelivered p.clientUx
    some { ep with
      cfx := { ep.cfx with numLegLaunch := ep.cfx.numLegLaunch + 1 }
      unlinked := ep.unlinked ++ [legNew circ link] }

inductive Event
  | send (side : Side) (origCirc : CircId) (m : RelayMsg)
  | canSend (side : Side)
  | tune (side : Side) (circ : CircId) (state : CircState)
  | updateRtt (side : Side) (circ : CircId) (rttUsec : Nat)
  | recv (side : Side) (circ : CircId) (now : Nat) (mayLaunch : Bool) (fails : Option Nat)
  | close (side : Side) (circ : CircId) (mayLaunch : Bool)
  | launch (circ : CircId)
  | opened (circ : CircId) (now : Nat)
  deriving DecidableEq, Repr

namespace Endpoint

def used (ep : Endpoint) : List CircId :=
  ep.cfx.circs ++ ep.pending ++ ep.retired.map (·.circ)

def hears (side : Side) (ep : Endpoint) (circ : CircId) : Bool :=
  if ep.closed then side = .exit && circ ∉ ep.used
  else circ ∈ ep.cfx.circs || circ ∈ ep.pending ||
    (side = .exit && circ ∉ ep.retired.map (·.circ))

end Endpoint

namespace World

def setEp (w : World) (s : Side) (ep : Endpoint) : World := { w with ep := Function.update w.ep s ep }

def push (w : World) (s : Side) (circ : CircId) (cells : List Cell) : World :=
  { w with
    chan := Function.update w.chan s (Function.update (w.chan s) circ (w.chan s circ ++ cells)) }

def pop (w : World) (s : Side) (circ : CircId) : World :=
  { w with
    chan := Function.update w.chan s (Function.update (w.chan s) circ (w.chan s circ).tail) }

def unused (w : World) (circ : CircId) : Bool :=
  circ ∉ (w.ep .client).used && circ ∉ (w.ep .exit).used &&
    (w.chan .client circ).isEmpty && (w.chan .exit circ).isEmpty

def step (p : Params) (w : World) : Event → Option World
  | .send s origCirc m =>
      let ep := w.ep s
      if ep.closed || origCirc ∉ ep.cfx.circs || m.command.isConflux then none
      else
        let (ep, circ, cells) := sendMsg p ep origCirc m
        some ((w.setEp s ep).push s.peer circ cells)
  | .canSend s =>
      let ep := w.ep s
      if ep.closed then none
      else some (w.setEp s { ep with cfx := (decideNextCirc p ep.net ep.cfx).1 })
  | .tune s circ state =>
      some (w.setEp s { (w.ep s) with net := Function.update (w.ep s).net circ state })
  | .updateRtt s circ rttUsec =>
      let ep := w.ep s
      if ep.closed then none
      else some (w.setEp s { ep with cfx := updateRtt ep.cfx circ rttUsec })
  | .recv s circ now mayLaunch fails =>
      match w.chan s circ with
      | [] => none
      | cell :: _ =>
          if !(w.ep s).hears s circ then none
          else
            let (ep, answer) := recvCell p s mayLaunch now fails (w.ep s) circ cell
            let ep := if fails.isSome && !ep.closed then ep.closeCirc s mayLaunch circ .handlerFailed
              else ep
            some (((w.pop s circ).setEp s ep).push s.peer circ answer)
  | .close s circ mayLaunch =>
      let ep := w.ep s
      if ep.closed || (circ ∉ ep.cfx.circs && circ ∉ ep.pending) then none
      else some (w.setEp s (ep.closeCirc s mayLaunch circ .external))
  | .launch circ =>
      let ep := w.ep .client
      if ep.closed || !w.unused circ then none
      else (launchLeg p ep circ).map (w.setEp .client)
  | .opened circ now =>
      let ep := w.ep .client
      match ep.getPending circ with
      | none => none
      | some leg =>
          if ep.closed || leg.linkSentUsec ≠ 0 || now = 0 then none
          else
            let legs := ep.unlinked.map fun l => if l.circ = circ then { l with linkSentUsec := now } else l
            some ((w.setEp .client { ep with unlinked := legs }).push .exit circ [.link leg.link])

def machine (p : Params) : Machine World Event where
  step := step p

end World
end TorJet
