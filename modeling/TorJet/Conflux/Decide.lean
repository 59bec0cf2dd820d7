import Mathlib.Algebra.Group.Nat.Defs
import TorJet.Smartlist.Core
import TorJet.Smartlist.Pqueue

/-!
# The conflux data model

Circuits and nonces only matter up to equality. Sequence numbers are unbounded here: the 64-bit
counters of the source count cells of one set and cannot wrap.
-/

namespace TorJet
open Smartlist

abbrev CircId := Nat

abbrev Nonce := Nat

inductive RelayCommand
  | begin | data | end_ | connected | sendme | extend | extended | truncate | truncated | drop
  | resolve | resolved | beginDir | extend2 | extended2
  | confluxLink | confluxLinked | confluxLinkedAck | confluxSwitch
  | establishIntro | establishRendezvous | introduce1 | introduce2 | rendezvous1 | rendezvous2
  | introEstablished | rendezvousEstablished | introduceAck
  | paddingNegotiate | paddingNegotiated | xoff | xon
  | unknown (command : UInt8)
  deriving DecidableEq, Repr

def RelayCommand.shouldMultiplex : RelayCommand → Bool
  | .begin | .data | .end_ | .connected => true
  | .resolve | .resolved => true
  | .xoff | .xon => true
  | _ => false

structure RelayMsg where
  command : RelayCommand
  streamId : Nat
  body : List UInt8
  deriving DecidableEq, Repr

def RelayMsg.length (m : RelayMsg) : Nat := m.body.length

inductive Alg
  | minrtt | lowrtt | cwndrtt
  deriving DecidableEq, Repr

inductive Ux
  | noOpinion | minLatency | lowMemLatency | highThroughput | lowMemThroughput
  deriving DecidableEq, Repr

def chooseAlgorithm : Ux → Alg
  | .noOpinion => .lowrtt
  | .minLatency => .minrtt
  | .highThroughput => .lowrtt
  | .lowMemThroughput | .lowMemLatency => .minrtt

/-- The parameters the code reads; `msgOverhead` is the size of the two records kept with a queued
message and `buildTimeoutUsec` the circuit build timeout. -/
structure Params where
  maxOooq : Nat
  drainPct : Nat
  maxLegsSet : Nat
  numLegsSet : Nat
  maxUnlinkedLegRetry : Nat
  clientUx : Ux
  msgOverhead : Nat
  buildTimeoutUsec : Nat

def Params.consensus : Params where
  maxOooq := 2 ^ 31 - 1
  drainPct := 0
  maxLegsSet := 8
  numLegsSet := 2
  maxUnlinkedLegRetry := 3
  clientUx := .highThroughput
  msgOverhead := 64
  buildTimeoutUsec := 60 * 10 ^ 6

structure CongestionControl where
  cwnd : Nat
  inflight : Nat
  sendmeInc : Nat
  inSlowStart : Bool
  deriving DecidableEq, Repr

structure CircState where
  cc : CongestionControl
  blocked : Bool
  deriving DecidableEq, Repr

structure ConfluxLeg where
  circ : CircId
  lastSeqRecv : Nat
  lastSeqSent : Nat
  circRttsUsec : Nat
  linkedSentUsec : Nat
  deriving DecidableEq, Repr

structure ConfluxMsg where
  seq : Nat
  heapIdx : Int
  msg : RelayMsg
  deriving DecidableEq, Repr

/-- `curr_leg` and `prev_leg` point into `legs`; a leg is named by its circuit. -/
structure Conflux where
  alg : Alg
  legs : List ConfluxLeg
  oooQ : List ConfluxMsg
  oooQAllocCost : Nat
  lastSeqDelivered : Nat
  cellsUntilSwitch : Nat
  currLeg : Option CircId
  prevLeg : Option CircId
  nonce : Nonce
  inFullTeardown : Bool
  numLegLaunch : Nat
  deriving DecidableEq, Repr

/-- `conflux_new`, with the nonce its only caller copies in. -/
def Conflux.new (nonce : Nonce) : Conflux where
  alg := .minrtt
  legs := []
  oooQ := []
  oooQAllocCost := 0
  lastSeqDelivered := 0
  cellsUntilSwitch := 0
  currLeg := none
  prevLeg := none
  nonce := nonce
  inFullTeardown := false
  numLegLaunch := 0

structure LinkCell where
  version : Nat
  desiredUx : Ux
  nonce : Nonce
  lastSeqnoSent : Nat
  lastSeqnoRecv : Nat
  deriving DecidableEq, Repr

def newLink (nonce : Nonce) (lastSent lastRecv : Nat) (ux : Ux) : LinkCell where
  version := 1
  desiredUx := ux
  nonce := nonce
  lastSeqnoSent := lastSent
  lastSeqnoRecv := lastRecv

/-- `leg_t`: a leg of an unlinked set. -/
structure PendingLeg where
  circ : CircId
  link : LinkCell
  linked : Bool
  linkSentUsec : Nat
  rttUsec : Nat
  deriving DecidableEq, Repr

def legNew (circ : CircId) (link : LinkCell) : PendingLeg where
  circ := circ
  link := link
  linked := false
  linkSentUsec := 0
  rttUsec := 0

namespace Conflux

def circs (cfx : Conflux) : List CircId := cfx.legs.map (·.circ)

def getLeg (cfx : Conflux) (circ : CircId) : Option ConfluxLeg :=
  cfx.legs.find? (·.circ = circ)

def modifyLeg (cfx : Conflux) (circ : CircId) (f : ConfluxLeg → ConfluxLeg) : Conflux :=
  { cfx with legs := cfx.legs.map fun leg => if leg.circ = circ then f leg else leg }

def getMaxSeqSent (cfx : Conflux) : Nat :=
  cfx.legs.foldl (fun best leg => if best < leg.lastSeqSent then leg.lastSeqSent else best) 0

def getMaxSeqRecv (cfx : Conflux) : Nat :=
  cfx.legs.foldl (fun best leg => if best < leg.lastSeqRecv then leg.lastSeqRecv else best) 0

end Conflux

def msgAllocCost (p : Params) (m : ConfluxMsg) : Nat := m.msg.length + p.msgOverhead

/-- `conflux_queue_cmp` and the offset of `heap_idx`. -/
def queueOrder : HeapOrder ConfluxMsg where
  compare a b := if a.seq < b.seq then -1 else if b.seq < a.seq then 1 else 0
  setIdx i m := { m with heapIdx := i }
  compare_trans := by
    intro x y z
    split_ifs <;> omega
  compare_flip := by
    intro x y
    split_ifs <;> omega
  compare_setIdx_left := rfl
  compare_setIdx_right := rfl

theorem queueOrder_le {a b : ConfluxMsg} : queueOrder.compare a b ≤ 0 ↔ a.seq ≤ b.seq := by
  simp only [queueOrder]
  split_ifs <;> omega

section Legs
variable {cfx : Conflux} {circ : CircId}

theorem getLeg_circ {leg : ConfluxLeg} (found : cfx.getLeg circ = some leg) : leg.circ = circ := by
  simpa using List.find?_some found

theorem getLeg_mem {leg : ConfluxLeg} (found : cfx.getLeg circ = some leg) : leg ∈ cfx.legs :=
  List.mem_of_find?_eq_some found

theorem getLeg_isSome : (cfx.getLeg circ).isSome ↔ circ ∈ cfx.circs := by
  simp [Conflux.getLeg, Conflux.circs]

theorem mem_circs_of_getLeg {leg : ConfluxLeg} (found : cfx.getLeg circ = some leg) :
    circ ∈ cfx.circs := getLeg_isSome.mp (by simp [found])

theorem exists_getLeg (mem : circ ∈ cfx.circs) : ∃ leg, cfx.getLeg circ = some leg :=
  Option.isSome_iff_exists.mp (getLeg_isSome.mpr mem)

theorem getLeg_eq_none (notMem : circ ∉ cfx.circs) : cfx.getLeg circ = none := by
  rw [← Option.not_isSome_iff_eq_none, getLeg_isSome]
  exact notMem

variable {f : ConfluxLeg → ConfluxLeg}

theorem circs_modifyLeg (keeps : ∀ leg, (f leg).circ = leg.circ) :
    (cfx.modifyLeg circ f).circs = cfx.circs :=
  map_key_update (fun leg isCirc => (keeps leg).trans isCirc) cfx.legs

theorem getLeg_modifyLeg (keeps : ∀ leg, (f leg).circ = leg.circ) (other : CircId) :
    (cfx.modifyLeg circ f).getLeg other =
      if other = circ then (cfx.getLeg other).map f else cfx.getLeg other :=
  find?_update (fun leg isCirc => (keeps leg).trans isCirc) cfx.legs other

end Legs

theorem getMaxSeqSent_le {cfx : Conflux} {n : Nat} (bound : ∀ leg ∈ cfx.legs, leg.lastSeqSent ≤ n) :
    cfx.getMaxSeqSent ≤ n := by
  have fold (legs : List ConfluxLeg) (start : Nat) (le : start ≤ n)
      (bound : ∀ leg ∈ legs, leg.lastSeqSent ≤ n) :
      legs.foldl (fun best leg => if best < leg.lastSeqSent then leg.lastSeqSent else best) start ≤ n := by
    induction legs generalizing start with
    | nil => exact le
    | cons leg legs ih =>
        rw [List.foldl_cons]
        refine ih _ ?_ fun l mem => bound l (List.mem_cons_of_mem _ mem)
        split
        · exact bound leg List.mem_cons_self
        · exact le
  exact fold cfx.legs 0 (Nat.zero_le n) bound

end TorJet

/-!
## Choosing the leg to send on

The three schedulers of `conflux.c`, and `conflux_decide_circ_for_send` with the SWITCH it emits.
Products that the source computes in 64 bits are reduced here as well.
-/

namespace TorJet

def uint64Max : Nat := 2 ^ 64 - 1

def uint32Max : Nat := 2 ^ 32 - 1

section Deciders
variable (p : Params) (net : CircId → CircState)

def circuitReadyToSend (circ : CircId) : Bool :=
  decide ((net circ).cc.inflight < (net circ).cc.cwnd) && !(net circ).blocked

def minRttLeg (legs : List ConfluxLeg) : Option ConfluxLeg × Nat :=
  legs.foldl (fun (best, minRtt) leg =>
    if leg.circRttsUsec ≠ 0 ∧ leg.circRttsUsec < minRtt then (some leg, leg.circRttsUsec)
    else (best, minRtt)) (none, uint64Max)

def decideCircMinrtt (cfx : Conflux) : Option CircId :=
  match (minRttLeg cfx.legs).1 with
  | some leg => if circuitReadyToSend net leg.circ then some leg.circ else none
  | none => none

def decideCircLowrtt (cfx : Conflux) : Option CircId :=
  (minRttLeg (cfx.legs.filter fun leg => circuitReadyToSend net leg.circ)).1.map (·.circ)

def cwndAvailable (circ : CircId) : Nat := (net circ).cc.cwnd - (net circ).cc.inflight

def cwndSendable (circ : CircId) (inUsec ourUsec : Nat) : Nat :=
  let cwndAdjusted := cwndAvailable net circ
  if ourUsec = 0 ∨ inUsec = 0 then cwndAdjusted
  else if (net circ).cc.inSlowStart then cwndAdjusted
  else min (net circ).cc.cwnd (cwndAdjusted * inUsec % 2 ^ 64 / ourUsec)

def canSwitch (cfx : Conflux) : Bool :=
  if 0 < cfx.cellsUntilSwitch then
    match cfx.prevLeg with
    | none => false
    | some prev =>
        let cc := (net prev).cc
        decide (cc.inflight < cc.sendmeInc) ||
          decide (100 * cc.inflight % 2 ^ 64 ≤ p.drainPct * cc.cwnd % 2 ^ 64)
  else true

def decideCircCwndrtt (cfx : Conflux) : Option CircId :=
  let (best, minRtt) := minRttLeg cfx.legs
  match best.filter fun leg => circuitReadyToSend net leg.circ with
  | some leg => some leg.circ
  | none =>
      -- the last leg with room, as the loop overwrites its choice
      (cfx.legs.reverse.find? fun leg =>
        circuitReadyToSend net leg.circ && decide (leg.circRttsUsec ≠ 0) &&
          decide (0 < cwndSendable net leg.circ minRtt leg.circRttsUsec)).map (·.circ)

/-- One round of the loop of `conflux_pick_first_leg`. -/
def closerLeg (minLeg : Option ConfluxLeg) (leg : ConfluxLeg) : Option ConfluxLeg :=
  if 0 < leg.circRttsUsec then
    match minLeg with
    | none => some leg
    | some best => if leg.circRttsUsec < best.circRttsUsec then some leg else minLeg
  else minLeg

def firstLeg (legs : List ConfluxLeg) : Option ConfluxLeg :=
  (legs.foldl closerLeg none).or legs.head?

def pickFirstLeg (cfx : Conflux) : Option Conflux :=
  (firstLeg cfx.legs).map fun leg => { cfx with cellsUntilSwitch := 0, currLeg := some leg.circ }

def decideByAlg (cfx : Conflux) : Option CircId :=
  match cfx.alg with
  | .minrtt => decideCircMinrtt net cfx
  | .lowrtt => decideCircLowrtt net cfx
  | .cwndrtt => decideCircCwndrtt net cfx

/-- The set after `pick_first_leg`, where it is needed; `none` where the decision ends early. -/
def withCurrLeg (cfx : Conflux) : Option Conflux :=
  if cfx.inFullTeardown then none
  else match cfx.currLeg with
    | some _ => some cfx
    | none => pickFirstLeg cfx

/-- `conflux_decide_next_circ`: it may set the current leg, and returns the circuit. -/
def decideNextCirc (cfx : Conflux) : Conflux × Option CircId :=
  match withCurrLeg cfx with
  | none => (cfx, none)
  | some cfx =>
      if canSwitch p net cfx then (cfx, decideByAlg net cfx)
      else (cfx, cfx.currLeg.filter (circuitReadyToSend net))

def Settled (cfx cfx' : Conflux) : Prop :=
  cfx' = cfx ∨ cfx.currLeg = none ∧
    ∃ circ ∈ cfx.circs, cfx' = { cfx with cellsUntilSwitch := 0, currLeg := some circ }

variable {p net}

private theorem foldl_choice_mem {σ : Type} (pick : σ → Option ConfluxLeg)
    {step : σ → ConfluxLeg → σ} (chooses : ∀ b l, pick (step b l) = pick b ∨ pick (step b l) = some l)
    {legs : List ConfluxLeg} {start : σ} {leg : ConfluxLeg}
    (found : pick (legs.foldl step start) = some leg) : pick start = some leg ∨ leg ∈ legs := by
  induction legs generalizing start with
  | nil => exact .inl found
  | cons l legs ih =>
      rcases ih found with first | mem
      · rcases chooses start l with same | new
        · exact .inl (same ▸ first)
        · obtain rfl : l = leg := Option.some.inj (new ▸ first)
          exact .inr List.mem_cons_self
      · exact .inr (List.mem_cons_of_mem _ mem)

theorem minRttLeg_mem {legs : List ConfluxLeg} {leg : ConfluxLeg}
    (found : (minRttLeg legs).1 = some leg) : leg ∈ legs := by
  have := foldl_choice_mem Prod.fst (fun b l => by dsimp only; split <;> simp) found
  simpa using this

theorem firstLeg_mem {legs : List ConfluxLeg} {leg : ConfluxLeg} (found : firstLeg legs = some leg) :
    leg ∈ legs := by
  rw [firstLeg, Option.or_eq_some_iff] at found
  rcases found with best | ⟨_, head⟩
  · have chooses (b : Option ConfluxLeg) (l : ConfluxLeg) :
        closerLeg b l = b ∨ closerLeg b l = some l := by
      unfold closerLeg
      split
      · split
        · exact .inr rfl
        · split <;> simp
      · exact .inl rfl
    simpa using foldl_choice_mem id chooses best
  · exact List.mem_of_head? head

theorem mem_circs_of_mem {cfx : Conflux} {leg : ConfluxLeg} (mem : leg ∈ cfx.legs) :
    leg.circ ∈ cfx.circs := List.mem_map_of_mem mem

theorem decideByAlg_mem {cfx : Conflux} {circ : CircId} (found : decideByAlg net cfx = some circ) :
    circ ∈ cfx.circs := by
  unfold decideByAlg at found
  split at found
  · unfold decideCircMinrtt at found
    split at found
    · rename_i leg best
      split at found
      · obtain rfl := Option.some.inj found
        exact mem_circs_of_mem (minRttLeg_mem best)
      · cases found
    · cases found
  · obtain ⟨leg, best, rfl⟩ := Option.map_eq_some_iff.mp found
    exact mem_circs_of_mem (List.mem_of_mem_filter (minRttLeg_mem best))
  · unfold decideCircCwndrtt at found
    dsimp only at found
    split at found
    · rename_i leg best
      obtain rfl := Option.some.inj found
      exact mem_circs_of_mem (minRttLeg_mem (Option.filter_eq_some_iff.mp best).1)
    · obtain ⟨leg, best, rfl⟩ := Option.map_eq_some_iff.mp found
      exact mem_circs_of_mem (List.mem_reverse.mp (List.mem_of_find?_eq_some best))

theorem withCurrLeg_settled {cfx cfx' : Conflux} (h : withCurrLeg cfx = some cfx') :
    Settled cfx cfx' ∧ cfx'.currLeg.isSome := by
  unfold withCurrLeg at h
  split at h
  · cases h
  · split at h
    · rename_i curr
      obtain rfl := Option.some.inj h
      exact ⟨.inl rfl, by simp [curr]⟩
    · rename_i unset
      obtain ⟨leg, first, rfl⟩ := Option.map_eq_some_iff.mp h
      exact ⟨.inr ⟨unset, leg.circ, mem_circs_of_mem (firstLeg_mem first), rfl⟩, rfl⟩

variable (p net) in
theorem decideNextCirc_spec (cfx : Conflux) :
    Settled cfx (decideNextCirc p net cfx).1 ∧
      ∀ circ, (decideNextCirc p net cfx).2 = some circ →
        (decideNextCirc p net cfx).1.currLeg.isSome ∧
          (circ ∈ (decideNextCirc p net cfx).1.circs ∨
            (decideNextCirc p net cfx).1.currLeg = some circ) := by
  unfold decideNextCirc
  split
  · exact ⟨.inl rfl, fun _ h => by cases h⟩
  · rename_i cfx' with_curr
    obtain ⟨settled, isSome⟩ := withCurrLeg_settled with_curr
    split
    · exact ⟨settled, fun circ h => ⟨isSome, .inl (decideByAlg_mem h)⟩⟩
    · exact ⟨settled, fun circ h => ⟨isSome, .inr (Option.filter_eq_some_iff.mp h).1⟩⟩

variable (p net)

inductive CloseReason
  | incoherentSeq
  | switchTooHigh
  | seqNotNew
  | oooqAtMaximum
  | noConflux
  | wrongSide
  | alreadyLinked
  | invalidLegs
  | tooManyLegs
  | badRtt
  | handlerFailed
  | external
  deriving DecidableEq, Repr

/-- The outcome of `conflux_decide_circ_for_send`. -/
inductive SendDecision
  | nothing
  | on (circ : CircId)
  | switchTo (circ : CircId) (relativeSeq : Nat)
  | closeSet (why : CloseReason)
  deriving DecidableEq, Repr

/-- The part of `conflux_decide_circ_for_send` that moves from leg `prev` to another leg. -/
def switchLeg (cfx : Conflux) (prev curr : ConfluxLeg) : Conflux × SendDecision :=
  let cfx := { cfx with
    cellsUntilSwitch := 0, prevLeg := some prev.circ, currLeg := some curr.circ }
  if prev.lastSeqSent < curr.lastSeqSent then (cfx, .closeSet .incoherentSeq)
  else
    let relativeSeq := prev.lastSeqSent - curr.lastSeqSent
    if uint32Max ≤ relativeSeq then (cfx, .closeSet .switchTooHigh)
    else
      (cfx.modifyLeg curr.circ fun leg => { leg with lastSeqSent := prev.lastSeqSent },
        .switchTo curr.circ relativeSeq)

def decideCircForSend (cfx : Conflux) (origCirc : CircId) (command : RelayCommand) :
    Conflux × SendDecision :=
  if !command.shouldMultiplex then (cfx, .on origCirc)
  else
    match decideNextCirc p net cfx with
    | (cfx, none) =>
        if command = .data then (cfx, .nothing)
        else match cfx.currLeg with
          | none => (cfx, .nothing)
          | some circ => (cfx, .on circ)
    | (cfx, some newCirc) =>
        match cfx.currLeg.bind cfx.getLeg, cfx.getLeg newCirc with
        | some prev, some curr =>
            if newCirc = prev.circ then (cfx, .on newCirc) else switchLeg cfx prev curr
        | _, _ => (cfx, .nothing)

variable {p net}

theorem decideCircForSend_cases (cfx : Conflux) (origCirc : CircId) {command : RelayCommand}
    (multiplexed : command.shouldMultiplex = true) :
    ∃ base, Settled cfx base ∧
      (decideCircForSend p net cfx origCirc command = (base, .nothing) ∨
        (∃ circ, base.currLeg = some circ ∧
          decideCircForSend p net cfx origCirc command = (base, .on circ)) ∨
        ∃ prev curr, base.currLeg = some prev.circ ∧ base.getLeg prev.circ = some prev ∧
          base.getLeg curr.circ = some curr ∧ curr.circ ≠ prev.circ ∧
          decideCircForSend p net cfx origCirc command = switchLeg base prev curr) := by
  have settled := (decideNextCirc_spec p net cfx).1
  simp only [decideCircForSend, multiplexed, Bool.not_true, Bool.false_eq_true, if_false]
  generalize decideNextCirc p net cfx = next at settled
  obtain ⟨base, choice⟩ := next
  refine ⟨base, settled, ?_⟩
  cases choice with
  | none =>
      dsimp only
      split
      · exact .inl rfl
      · split
        · exact .inl rfl
        · rename_i circ curr
          exact .inr (.inl ⟨circ, curr, rfl⟩)
  | some newCirc =>
      dsimp only
      split
      · rename_i prev curr prevFound currFound
        obtain ⟨circ, currLeg, prevLeg⟩ := Option.bind_eq_some_iff.mp prevFound
        obtain rfl : prev.circ = circ := getLeg_circ prevLeg
        obtain rfl : curr.circ = newCirc := getLeg_circ currFound
        split
        · rename_i same
          exact .inr (.inl ⟨curr.circ, same ▸ currLeg, rfl⟩)
        · rename_i other
          exact .inr (.inr ⟨prev, curr, currLeg, prevLeg, currFound, other, rfl⟩)
      · exact .inl rfl

end Deciders

def noteCellSent (cfx : Conflux) (circ : CircId) (command : RelayCommand) : Conflux :=
  if !command.shouldMultiplex then cfx
  else if (cfx.getLeg circ).isNone then cfx
  else
    let sent := cfx.modifyLeg circ fun leg => { leg with lastSeqSent := leg.lastSeqSent + 1 }
    { sent with cellsUntilSwitch := sent.cellsUntilSwitch - 1 }

def updateRtt (cfx : Conflux) (circ : CircId) (rttUsec : Nat) : Conflux :=
  cfx.modifyLeg circ fun leg => { leg with circRttsUsec := rttUsec }

end TorJet
