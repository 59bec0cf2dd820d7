import Mathlib.Data.Multiset.AddSub
import TorJet.Conflux.Decide

/-! # Receiving: SWITCH cells, relay messages and the out-of-order queue -/

namespace TorJet
open Smartlist HeapOrder

def processSwitchCommand (cfx : Conflux) (circ : CircId) (relativeSeq : Nat) : Conflux :=
  cfx.modifyLeg circ fun leg => { leg with lastSeqRecv := leg.lastSeqRecv + relativeSeq }

inductive MsgOutcome
  | inOrder
  | queued
  | close (why : CloseReason)
  deriving DecidableEq, Repr

def processRelayMsg (p : Params) (cfx : Conflux) (circ : CircId) (msg : RelayMsg) :
    Conflux × MsgOutcome :=
  match cfx.getLeg circ with
  | none => (cfx, .close .noConflux)
  | some leg =>
      let seq := leg.lastSeqRecv + 1
      let counted := cfx.modifyLeg circ fun leg => { leg with lastSeqRecv := seq }
      if seq = cfx.lastSeqDelivered + 1 then
        ({ counted with lastSeqDelivered := cfx.lastSeqDelivered + 1 }, .inOrder)
      else if seq ≤ cfx.lastSeqDelivered then (counted, .close .seqNotNew)
      else if p.maxOooq ≤ cfx.oooQAllocCost then (counted, .close .oooqAtMaximum)
      else
        let cMsg : ConfluxMsg := { seq := seq, heapIdx := 0, msg := msg }
        ({ counted with
            oooQ := queueOrder.pqueueAdd cfx.oooQ cMsg
            oooQAllocCost := cfx.oooQAllocCost + msgAllocCost p cMsg }, .queued)

def dequeueRelayMsg (p : Params) (cfx : Conflux) : Option (Conflux × RelayMsg) :=
  match cfx.oooQ.head? with
  | none => none
  | some top =>
      if top.seq = cfx.lastSeqDelivered + 1 then
        match queueOrder.pqueuePop cfx.oooQ with
        | none => none
        | some (_, rest) =>
            some ({ cfx with
              oooQ := rest
              oooQAllocCost := cfx.oooQAllocCost - msgAllocCost p top
              lastSeqDelivered := cfx.lastSeqDelivered + 1 }, top.msg)
      else none

/-- The loop of `connection_edge_process_relay_cell`, cut off after `fuel` messages. -/
def dequeueLoop (p : Params) : Nat → Conflux → Conflux × List RelayMsg
  | 0, cfx => (cfx, [])
  | fuel + 1, cfx =>
      match dequeueRelayMsg p cfx with
      | none => (cfx, [])
      | some (cfx, msg) =>
          let (cfx, msgs) := dequeueLoop p fuel cfx
          (cfx, msg :: msgs)

namespace Conflux

def queued (cfx : Conflux) : Multiset (RelayMsg × Nat) := ↑(cfx.oooQ.map fun m => (m.msg, m.seq))

def QueueOrdered (cfx : Conflux) : Prop := queueOrder.Ordered cfx.oooQ

end Conflux

variable {p : Params} {cfx : Conflux}

theorem queued_congr {cfx cfx' : Conflux} (same : cfx'.oooQ = cfx.oooQ) : cfx'.queued = cfx.queued := by
  rw [Conflux.queued, same]
  rfl

theorem queued_add (q : List ConfluxMsg) (m : ConfluxMsg) :
    (↑((queueOrder.pqueueAdd q m).map fun m => (m.msg, m.seq)) : Multiset (RelayMsg × Nat)) =
      (m.msg, m.seq) ::ₘ ↑(q.map fun m => (m.msg, m.seq)) := by
  rw [Multiset.cons_coe, Multiset.coe_eq_coe]
  exact pqueueAdd_perm (fun _ _ => rfl) q m

theorem processRelayMsg_cases {circ : CircId} {leg : ConfluxLeg} (found : cfx.getLeg circ = some leg)
    (msg : RelayMsg) (new : cfx.lastSeqDelivered < leg.lastSeqRecv + 1) :
    ∃ base, base = cfx.modifyLeg circ (fun l => { l with lastSeqRecv := leg.lastSeqRecv + 1 }) ∧
      (leg.lastSeqRecv = cfx.lastSeqDelivered ∧ processRelayMsg p cfx circ msg =
          ({ base with lastSeqDelivered := cfx.lastSeqDelivered + 1 }, .inOrder) ∨
        leg.lastSeqRecv ≠ cfx.lastSeqDelivered ∧
          processRelayMsg p cfx circ msg = (base, .close .oooqAtMaximum) ∨
        ∃ q cost, (↑(q.map fun m => (m.msg, m.seq)) : Multiset (RelayMsg × Nat)) =
            (msg, leg.lastSeqRecv + 1) ::ₘ cfx.queued ∧
          (cfx.QueueOrdered → queueOrder.Ordered q) ∧ leg.lastSeqRecv ≠ cfx.lastSeqDelivered ∧
          processRelayMsg p cfx circ msg =
            ({ base with oooQ := q, oooQAllocCost := cost }, .queued)) := by
  refine ⟨_, rfl, ?_⟩
  simp only [processRelayMsg, found]
  by_cases next : leg.lastSeqRecv + 1 = cfx.lastSeqDelivered + 1
  · rw [if_pos next]
    exact .inl ⟨by omega, rfl⟩
  · rw [if_neg next, if_neg (by omega)]
    by_cases full : p.maxOooq ≤ cfx.oooQAllocCost
    · rw [if_pos full]
      exact .inr (.inl ⟨by omega, rfl⟩)
    · rw [if_neg full]
      exact .inr (.inr ⟨_, _, queued_add _ _, fun h => pqueueAdd_ordered h _, by omega, rfl⟩)

theorem dequeueRelayMsg_spec {cfx' : Conflux} {msg : RelayMsg}
    (taken : dequeueRelayMsg p cfx = some (cfx', msg)) :
    ∃ q cost, cfx' = { cfx with
        oooQ := q, oooQAllocCost := cost, lastSeqDelivered := cfx.lastSeqDelivered + 1 } ∧
      cfx.queued = (msg, cfx.lastSeqDelivered + 1) ::ₘ ↑(q.map fun m => (m.msg, m.seq)) ∧
      (cfx.QueueOrdered → queueOrder.Ordered q) := by
  unfold dequeueRelayMsg at taken
  split at taken
  · cases taken
  · rename_i top head
    split at taken
    · rename_i next
      have first : cfx.oooQ[0]? = some top := by rw [← List.head?_eq_getElem?]; exact head
      obtain ⟨rest, popped⟩ := pqueuePop_top (o := queueOrder) first
      rw [popped] at taken
      obtain ⟨rfl, rfl⟩ := Prod.mk.inj (Option.some.inj taken)
      refine ⟨rest, _, rfl, ?_, fun h => pqueuePop_ordered h popped⟩
      have perm := pqueuePop_perm (f := fun m : ConfluxMsg => (m.msg, m.seq)) (fun _ _ => rfl) popped
      rw [Conflux.queued, Multiset.cons_coe, Multiset.coe_eq_coe, ← next]
      exact perm.symm
    · cases taken

theorem dequeueRelayMsg_length {cfx' : Conflux} {msg : RelayMsg}
    (taken : dequeueRelayMsg p cfx = some (cfx', msg)) :
    cfx.oooQ.length = cfx'.oooQ.length + 1 := by
  obtain ⟨q, cost, rfl, contents, -⟩ := dequeueRelayMsg_spec taken
  simpa [Conflux.queued] using congrArg Multiset.card contents

theorem dequeueLoop_spec (fuel : Nat) (cfx : Conflux) :
    ∃ q cost, (dequeueLoop p fuel cfx).1 = { cfx with
        oooQ := q
        oooQAllocCost := cost
        lastSeqDelivered := cfx.lastSeqDelivered + (dequeueLoop p fuel cfx).2.length } ∧
      cfx.queued = ↑((dequeueLoop p fuel cfx).2.zipIdx (cfx.lastSeqDelivered + 1)) +
        ↑(q.map fun m => (m.msg, m.seq)) ∧
      (cfx.QueueOrdered → queueOrder.Ordered q) ∧
      (cfx.oooQ.length ≤ fuel → dequeueRelayMsg p (dequeueLoop p fuel cfx).1 = none) := by
  induction fuel generalizing cfx with
  | zero =>
      refine ⟨cfx.oooQ, cfx.oooQAllocCost, rfl, by simp [dequeueLoop, Conflux.queued], id, fun le => ?_⟩
      have empty : cfx.oooQ = [] := List.eq_nil_of_length_eq_zero (by omega)
      simp [dequeueLoop, dequeueRelayMsg, empty]
  | succ fuel ih =>
      cases taken : dequeueRelayMsg p cfx with
      | none =>
          simp only [dequeueLoop, taken]
          exact ⟨cfx.oooQ, cfx.oooQAllocCost, rfl, by simp [Conflux.queued], id, fun _ => trivial⟩
      | some result =>
          obtain ⟨next, msg⟩ := result
          obtain ⟨q, cost, rfl, contents, ordered⟩ := dequeueRelayMsg_spec taken
          have shorter := dequeueRelayMsg_length taken
          obtain ⟨q', cost', eq, contents', ordered', stuck⟩ := ih { cfx with
            oooQ := q, oooQAllocCost := cost, lastSeqDelivered := cfx.lastSeqDelivered + 1 }
          simp only [dequeueLoop, taken]
          refine ⟨q', cost', ?_, ?_, fun h => ordered' (ordered h), fun le => stuck ?_⟩
          · rw [eq, List.length_cons]
            congr 1
            dsimp only
            omega
          · rw [contents, List.zipIdx_cons, ← Multiset.cons_coe, Multiset.cons_add]
            exact congrArg _ contents'
          · dsimp only at shorter ⊢
            omega

theorem next_notMem_of_dequeue_none (stuck : dequeueRelayMsg p cfx = none) (ordered : cfx.QueueOrdered)
    (new : ∀ q ∈ cfx.queued, cfx.lastSeqDelivered < q.2) (msg : RelayMsg) :
    (msg, cfx.lastSeqDelivered + 1) ∉ cfx.queued := by
  intro mem
  obtain ⟨m, inQueue, eq⟩ := List.mem_map.mp (Multiset.mem_coe.mp mem)
  unfold dequeueRelayMsg at stuck
  cases head : cfx.oooQ.head? with
  | none =>
      rw [List.head?_eq_none_iff.mp head] at inQueue
      cases inQueue
  | some top =>
      have first : cfx.oooQ[0]? = some top := by rw [← List.head?_eq_getElem?]; exact head
      have least : top.seq ≤ m.seq := queueOrder_le.mp (top_least ordered first inQueue)
      have topNew := new (top.msg, top.seq)
        (Multiset.mem_coe.mpr (List.mem_map_of_mem (List.mem_of_head? head)))
      obtain ⟨rest, popped⟩ := pqueuePop_top (o := queueOrder) first
      have seq : m.seq = cfx.lastSeqDelivered + 1 := (Prod.mk.inj eq).2
      dsimp only at topNew
      simp only [head, popped] at stuck
      rw [if_pos (by omega)] at stuck
      cases stuck

end TorJet

/-! ## Adding and deleting legs, and finalising an unlinked set -/

namespace TorJet
open Smartlist

def PendingLeg.toLeg (leg : PendingLeg) : ConfluxLeg where
  circ := leg.circ
  lastSeqRecv := leg.link.lastSeqnoSent
  lastSeqSent := leg.link.lastSeqnoRecv
  circRttsUsec := leg.rttUsec
  linkedSentUsec := leg.linkSentUsec

def cfxAddLeg (cfx : Conflux) (leg : PendingLeg) : Conflux :=
  { cfx with
    alg := chooseAlgorithm leg.link.desiredUx
    legs := cfx.legs ++ [leg.toLeg] }

/-- The set without the leg of `circ`, before the references to it are cleaned up. -/
def withoutLeg (cfx : Conflux) (circ : CircId) : Conflux :=
  { cfx with legs := remove (fun leg => leg.circ = circ) cfx.legs }

/-- The teardown condition of `cfx_del_leg`: data in flight, a sequence number above those of the
remaining legs, or the current leg. -/
def fullTeardown (cc : CongestionControl) (cfx : Conflux) (leg : ConfluxLeg) : Bool :=
  let rest := withoutLeg cfx leg.circ
  decide (cc.sendmeInc ≤ cc.inflight) ||
    (!rest.legs.isEmpty && (decide (rest.getMaxSeqSent < leg.lastSeqSent) ||
      decide (rest.getMaxSeqRecv < leg.lastSeqRecv))) ||
    decide (cfx.currLeg = some leg.circ)

/-- `cfx_del_leg`; the flag asks for the teardown of the whole set. -/
def cfxDelLeg (cc : CongestionControl) (cfx : Conflux) (circ : CircId) : Conflux × Bool :=
  match cfx.getLeg circ with
  | none => (cfx, false)
  | some leg =>
      let full := fullTeardown cc cfx leg
      ({ withoutLeg cfx circ with
          currLeg := if cfx.currLeg = some circ then none else cfx.currLeg
          prevLeg := if cfx.prevLeg = some circ then none else cfx.prevLeg
          numLegLaunch := if full then cfx.numLegLaunch else cfx.numLegLaunch - 1 }, full)

def validateUnlinkedLegs (cfx : Conflux) (legs : List PendingLeg) : Bool :=
  legs.all fun leg =>
    (legs.head?.all fun first =>
      leg.link.version = first.link.version && leg.link.nonce = first.link.nonce) &&
    decide (leg.link.lastSeqnoSent ≤ cfx.lastSeqDelivered)

inductive Finalize
  | missingLeg
  | tooManyLegs
  | invalidLegs
  | waiting
  | linked (cfx : Conflux)
  deriving DecidableEq, Repr

def Finalize.isLinked : Finalize → Bool
  | .linked _ => true
  | _ => false

/-- The legs in the order in which the loop of `try_finalize_set` moves them over. -/
def addLegs (cfx : Conflux) (legs : List PendingLeg) : Conflux :=
  { (drained legs).foldl cfxAddLeg cfx with numLegLaunch := 0 }

def tryFinalizeSet (p : Params) (cfx : Conflux) (legs : List PendingLeg) : Finalize :=
  if legs.isEmpty then .missingLeg
  else if p.maxLegsSet < legs.length + cfx.legs.length then .tooManyLegs
  else if !validateUnlinkedLegs cfx legs then .invalidLegs
  else if !legs.all (·.linked) then .waiting
  else .linked (addLegs cfx legs)

theorem addLegs_eq (cfx : Conflux) (legs : List PendingLeg) :
    ∃ alg, addLegs cfx legs = { cfx with
      alg := alg
      legs := cfx.legs ++ (drained legs).map PendingLeg.toLeg
      numLegLaunch := 0 } := by
  have fold (order : List PendingLeg) (cfx : Conflux) : ∃ alg, order.foldl cfxAddLeg cfx =
      { cfx with alg := alg, legs := cfx.legs ++ order.map PendingLeg.toLeg } := by
    induction order generalizing cfx with
    | nil => exact ⟨cfx.alg, by simp⟩
    | cons leg order ih =>
        obtain ⟨alg, eq⟩ := ih (cfxAddLeg cfx leg)
        exact ⟨alg, by rw [List.foldl_cons, eq]; simp [cfxAddLeg]⟩
  obtain ⟨alg, eq⟩ := fold (drained legs) cfx
  exact ⟨alg, by rw [addLegs, eq]⟩

theorem tryFinalizeSet_linked {p : Params} {cfx cfx' : Conflux} {legs : List PendingLeg}
    (h : tryFinalizeSet p cfx legs = .linked cfx') :
    cfx' = addLegs cfx legs ∧ (∀ leg ∈ legs, leg.linked = true) ∧
      ∀ leg ∈ legs, leg.link.lastSeqnoSent ≤ cfx.lastSeqDelivered := by
  unfold tryFinalizeSet at h
  split at h
  · cases h
  · split at h
    · cases h
    · split at h
      · cases h
      · rename_i valid
        split at h
        · cases h
        · rename_i allLinked
          obtain rfl := Finalize.linked.inj h
          refine ⟨rfl, by simpa using allLinked, fun leg mem => ?_⟩
          simp only [Bool.not_eq_true', Bool.not_eq_false, validateUnlinkedLegs, List.all_eq_true,
            Bool.and_eq_true, decide_eq_true_eq] at valid
          exact (valid leg mem).2

end TorJet
