import Mathlib.Algebra.BigOperators.Group.List.Basic
import Mathlib.Algebra.Order.Ring.Nat
import Mathlib.Data.List.Perm.Basic
import TorJet.Base.Machine
import TorJet.Conflux.Receive

/-!
# The bytes of the out-of-order queues

All `conflux_t` objects of a process and the byte counter they share. The blocks that the counters
add up are allocated at once, so a sum cannot wrap; a subtraction could, and `underflow` records one
that takes more than there is: the BUG branch of `conflux_clear_ooo_q`, or a counter of
`conflux_dequeue_relay_msg` that wraps.
-/

namespace TorJet.Accounting
open Smartlist HeapOrder Base

structure State where
  sets : List Conflux
  totalOooQBytes : Nat
  underflow : Bool
  deriving DecidableEq, Repr

inductive Event
  | new (nonce : Nonce)
  | link (set : Nat) (legs : List PendingLeg)
  | relayMsg (set : Nat) (circ : CircId) (msg : RelayMsg) (cc : CongestionControl)
  | switch (set : Nat) (circ : CircId) (relativeSeq : Nat)
  | dequeue (set : Nat)
  | close (set : Nat) (circ : CircId) (cc : CongestionControl)
  | free (set : Nat)
  deriving DecidableEq, Repr

/-- One round of the loop of `conflux_clear_ooo_q`. -/
def clearMsg (p : Params) (s : State) (m : ConfluxMsg) : State :=
  let cost := msgAllocCost p m
  if s.totalOooQBytes < cost then { s with totalOooQBytes := 0, underflow := true }
  else { s with totalOooQBytes := s.totalOooQBytes - cost }

def clearOooQ (p : Params) (s : State) (cfx : Conflux) : State := cfx.oooQ.foldl (clearMsg p) s

namespace State
variable (p : Params) (s : State)

def setAt (i : Nat) (cfx : Conflux) : State := { s with sets := s.sets.set i cfx }

/-- `conflux_process_relay_msg` on the set at `i`; where it marks the circuit for close, the leg is
deleted before it returns. -/
def relayMsg (i : Nat) (cfx : Conflux) (circ : CircId) (msg : RelayMsg) (cc : CongestionControl) : State :=
  match processRelayMsg p cfx circ msg with
  | (cfx, .inOrder) => s.setAt i cfx
  | (cfx, .queued) =>
      { s.setAt i cfx with totalOooQBytes := s.totalOooQBytes + (msg.length + p.msgOverhead) }
  | (cfx, .close _) => s.setAt i (cfxDelLeg cc cfx circ).1

def dequeue (i : Nat) (cfx : Conflux) : State :=
  match dequeueRelayMsg p cfx with
  | none => s
  | some (next, msg) =>
      let cost := msg.length + p.msgOverhead
      { s.setAt i next with
        totalOooQBytes := s.totalOooQBytes - cost
        underflow := s.underflow || decide (s.totalOooQBytes < cost) || decide (cfx.oooQAllocCost < cost) }

def free (i : Nat) (cfx : Conflux) : State :=
  let s := clearOooQ p s cfx
  { s with sets := s.sets.eraseIdx i }

def step : Event → Option State
  | .new nonce => some { s with sets := s.sets ++ [Conflux.new nonce] }
  | .link i legs => s.sets[i]?.bind fun cfx =>
      match tryFinalizeSet p cfx legs with
      | .linked cfx => some (s.setAt i cfx)
      | _ => none
  | .relayMsg i circ msg cc => s.sets[i]?.map fun cfx => s.relayMsg p i cfx circ msg cc
  | .switch i circ relativeSeq =>
      s.sets[i]?.map fun cfx => s.setAt i (processSwitchCommand cfx circ relativeSeq)
  | .dequeue i => s.sets[i]?.map fun cfx => s.dequeue p i cfx
  | .close i circ cc => s.sets[i]?.map fun cfx => s.setAt i (cfxDelLeg cc cfx circ).1
  | .free i => s.sets[i]?.map fun cfx => s.free p i cfx

def machine : Machine State Event where
  step s e := step p s e

def initial : State where
  sets := []
  totalOooQBytes := 0
  underflow := false

end State

/-! ## One set -/

def queueCost (p : Params) (q : List ConfluxMsg) : Nat := (q.map (msgAllocCost p)).sum

structure Accounted (p : Params) (cfx : Conflux) : Prop where
  exact : cfx.oooQAllocCost = queueCost p cfx.oooQ
  capped : cfx.oooQ = [] ∨ ∃ m ∈ cfx.oooQ, cfx.oooQAllocCost < p.maxOooq + msgAllocCost p m

variable {p : Params} {cfx : Conflux}

theorem accounted_new (nonce : Nonce) : Accounted p (Conflux.new nonce) := ⟨rfl, .inl rfl⟩

theorem Accounted.congr {next : Conflux} (h : Accounted p cfx) (queue : next.oooQ = cfx.oooQ)
    (cost : next.oooQAllocCost = cfx.oooQAllocCost) : Accounted p next := by
  constructor
  · rw [queue, cost]
    exact h.exact
  · rw [queue, cost]
    exact h.capped

theorem cfxDelLeg_queue (cc : CongestionControl) (cfx : Conflux) (circ : CircId) :
    (cfxDelLeg cc cfx circ).1.oooQ = cfx.oooQ ∧
      (cfxDelLeg cc cfx circ).1.oooQAllocCost = cfx.oooQAllocCost := by
  unfold cfxDelLeg
  split <;> exact ⟨rfl, rfl⟩

theorem pqueueAdd_costs (q : List ConfluxMsg) (m : ConfluxMsg) :
    ((queueOrder.pqueueAdd q m).map (msgAllocCost p)).Perm (msgAllocCost p m :: q.map (msgAllocCost p)) :=
  pqueueAdd_perm (fun _ _ => rfl) q m

theorem Accounted.enqueue (h : Accounted p cfx) (room : cfx.oooQAllocCost < p.maxOooq) (m : ConfluxMsg)
    {next : Conflux} (queue : next.oooQ = queueOrder.pqueueAdd cfx.oooQ m)
    (cost : next.oooQAllocCost = cfx.oooQAllocCost + msgAllocCost p m) : Accounted p next := by
  have costs := pqueueAdd_costs (p := p) cfx.oooQ m
  constructor
  · rw [cost, queue, queueCost, costs.sum_eq, List.sum_cons, h.exact, queueCost, Nat.add_comm]
  · right
    have mem : msgAllocCost p m ∈ (queueOrder.pqueueAdd cfx.oooQ m).map (msgAllocCost p) :=
      costs.mem_iff.mpr List.mem_cons_self
    obtain ⟨kept, inQueue, same⟩ := List.mem_map.mp mem
    refine ⟨kept, by rw [queue]; exact inQueue, ?_⟩
    rw [cost, same]
    exact Nat.add_lt_add_right room _

theorem capped_of_lt {q : List ConfluxMsg} {cost : Nat} (below : cost < p.maxOooq) :
    q = [] ∨ ∃ m ∈ q, cost < p.maxOooq + msgAllocCost p m := by
  cases q with
  | nil => exact .inl rfl
  | cons m q => exact .inr ⟨m, List.mem_cons_self, by omega⟩

theorem dequeueRelayMsg_costs {next : Conflux} {msg : RelayMsg}
    (taken : dequeueRelayMsg p cfx = some (next, msg)) :
    (cfx.oooQ.map (msgAllocCost p)).Perm
        ((msg.length + p.msgOverhead) :: next.oooQ.map (msgAllocCost p)) ∧
      next.oooQAllocCost = cfx.oooQAllocCost - (msg.length + p.msgOverhead) := by
  unfold dequeueRelayMsg at taken
  split at taken
  · cases taken
  · rename_i top head
    split at taken
    · have first : cfx.oooQ[0]? = some top := by rw [← List.head?_eq_getElem?]; exact head
      obtain ⟨rest, popped⟩ := pqueuePop_top (o := queueOrder) first
      rw [popped] at taken
      obtain ⟨rfl, rfl⟩ := Prod.mk.inj (Option.some.inj taken)
      exact ⟨(pqueuePop_perm (f := msgAllocCost p) (fun _ _ => rfl) popped).symm, rfl⟩
    · cases taken

theorem Accounted.dequeue (h : Accounted p cfx) {next : Conflux} {msg : RelayMsg}
    (taken : dequeueRelayMsg p cfx = some (next, msg)) :
    Accounted p next ∧ cfx.oooQAllocCost = (msg.length + p.msgOverhead) + next.oooQAllocCost := by
  obtain ⟨costs, cost⟩ := dequeueRelayMsg_costs taken
  have total : cfx.oooQAllocCost = (msg.length + p.msgOverhead) + queueCost p next.oooQ := by
    rw [h.exact, queueCost, costs.sum_eq, List.sum_cons, queueCost]
  refine ⟨⟨by omega, ?_⟩, by omega⟩
  obtain empty | ⟨m, inQueue, bound⟩ := h.capped
  · rw [empty] at costs
    cases costs.length_eq
  · -- the message that went over the cap stays in the queue, or is the one taken off it
    have mem := costs.mem_iff.mp (List.mem_map_of_mem inQueue)
    obtain same | stays := List.mem_cons.mp mem
    · exact capped_of_lt (by omega)
    · obtain ⟨kept, keptMem, same⟩ := List.mem_map.mp stays
      exact .inr ⟨kept, keptMem, by omega⟩

/-! ## All sets -/

def totalCost (sets : List Conflux) : Nat := (sets.map (·.oooQAllocCost)).sum

theorem totalCost_split {sets : List Conflux} {i : Nat} (at_ : sets[i]? = some cfx) :
    totalCost sets = cfx.oooQAllocCost + totalCost (sets.eraseIdx i) := by
  obtain ⟨range, rfl⟩ := List.getElem?_eq_some_iff.mp at_
  have perm := (List.getElem_cons_eraseIdx_perm range).map (·.oooQAllocCost)
  exact perm.sum_eq.symm

theorem totalCost_set {sets : List Conflux} {i : Nat} (at_ : sets[i]? = some cfx) (next : Conflux) :
    totalCost (sets.set i next) = next.oooQAllocCost + totalCost (sets.eraseIdx i) := by
  obtain ⟨range, -⟩ := List.getElem?_eq_some_iff.mp at_
  have perm := (List.set_perm_cons_eraseIdx range next).map (·.oooQAllocCost)
  exact perm.sum_eq

structure Balanced (p : Params) (s : State) : Prop where
  sets : ∀ cfx ∈ s.sets, Accounted p cfx
  total : s.totalOooQBytes = totalCost s.sets
  guarded : s.underflow = false

variable {s : State} {i : Nat}

theorem Balanced.initial : Balanced p State.initial := by
  constructor
  · intro cfx mem
    cases mem
  · rfl
  · rfl

theorem Balanced.replace (h : Balanced p s) (at_ : s.sets[i]? = some cfx) {next : Conflux}
    (accounted : Accounted p next) (total : Nat)
    (change : total + cfx.oooQAllocCost = s.totalOooQBytes + next.oooQAllocCost) :
    Balanced p { sets := s.sets.set i next, totalOooQBytes := total, underflow := false } := by
  have before := totalCost_split at_
  have after := totalCost_set at_ next
  constructor
  · intro other mem
    obtain old | rfl := List.mem_or_eq_of_mem_set mem
    · exact h.sets other old
    · exact accounted
  · have := h.total
    dsimp only
    omega
  · rfl

theorem Balanced.setAt (h : Balanced p s) (at_ : s.sets[i]? = some cfx) {next : Conflux}
    (queue : next.oooQ = cfx.oooQ) (cost : next.oooQAllocCost = cfx.oooQAllocCost) :
    Balanced p (s.setAt i next) := by
  have accounted := (h.sets cfx (List.mem_of_getElem? at_)).congr queue cost
  have balanced := h.replace at_ accounted s.totalOooQBytes (by omega)
  rw [← h.guarded] at balanced
  exact balanced

theorem Balanced.relayMsg (h : Balanced p s) (at_ : s.sets[i]? = some cfx) (circ : CircId)
    (msg : RelayMsg) (cc : CongestionControl) : Balanced p (s.relayMsg p i cfx circ msg cc) := by
  have accounted := h.sets cfx (List.mem_of_getElem? at_)
  have closes (counted : Conflux) (queue : counted.oooQ = cfx.oooQ)
      (cost : counted.oooQAllocCost = cfx.oooQAllocCost) :
      Balanced p (s.setAt i (cfxDelLeg cc counted circ).1) := by
    obtain ⟨sameQueue, sameCost⟩ := cfxDelLeg_queue cc counted circ
    exact h.setAt at_ (sameQueue.trans queue) (sameCost.trans cost)
  unfold State.relayMsg processRelayMsg
  cases found : cfx.getLeg circ with
  | none => exact closes cfx rfl rfl
  | some leg =>
      dsimp only
      by_cases next : leg.lastSeqRecv + 1 = cfx.lastSeqDelivered + 1
      · rw [if_pos next]
        exact h.setAt at_ rfl rfl
      · rw [if_neg next]
        by_cases old : leg.lastSeqRecv + 1 ≤ cfx.lastSeqDelivered
        · rw [if_pos old]
          exact closes _ rfl rfl
        · rw [if_neg old]
          by_cases full : p.maxOooq ≤ cfx.oooQAllocCost
          · rw [if_pos full]
            exact closes _ rfl rfl
          · rw [if_neg full]
            dsimp only [State.setAt]
            rw [h.guarded]
            apply h.replace at_
            · exact accounted.enqueue (Nat.lt_of_not_le full) _ rfl rfl
            · dsimp only [msgAllocCost]
              omega

theorem Balanced.dequeue (h : Balanced p s) (at_ : s.sets[i]? = some cfx) :
    Balanced p (s.dequeue p i cfx) := by
  unfold State.dequeue
  cases taken : dequeueRelayMsg p cfx with
  | none => exact h
  | some result =>
      obtain ⟨next, msg⟩ := result
      obtain ⟨accounted, cost⟩ := (h.sets cfx (List.mem_of_getElem? at_)).dequeue taken
      have enough : cfx.oooQAllocCost ≤ s.totalOooQBytes := by
        rw [h.total, totalCost_split at_]
        exact Nat.le_add_right _ _
      have guarded : (s.underflow || decide (s.totalOooQBytes < msg.length + p.msgOverhead) ||
          decide (cfx.oooQAllocCost < msg.length + p.msgOverhead)) = false := by
        rw [h.guarded, decide_eq_false (by omega), decide_eq_false (by omega)]
        rfl
      dsimp only [State.setAt]
      rw [guarded]
      exact h.replace at_ accounted _ (by omega)

theorem clear_fold (q : List ConfluxMsg) (s : State) (enough : queueCost p q ≤ s.totalOooQBytes) :
    q.foldl (clearMsg p) s = { s with totalOooQBytes := s.totalOooQBytes - queueCost p q } := by
  induction q generalizing s with
  | nil => rfl
  | cons m q ih =>
      have cost : queueCost p (m :: q) = msgAllocCost p m + queueCost p q := by
        rw [queueCost, List.map_cons, List.sum_cons, queueCost]
      have first : clearMsg p s m = { s with totalOooQBytes := s.totalOooQBytes - msgAllocCost p m } := by
        unfold clearMsg
        dsimp only
        rw [if_neg (by omega)]
      rw [List.foldl_cons, first, ih _ (by dsimp only; omega), cost, Nat.sub_add_eq]

theorem Balanced.free (h : Balanced p s) (at_ : s.sets[i]? = some cfx) : Balanced p (s.free p i cfx) := by
  have cost := (h.sets cfx (List.mem_of_getElem? at_)).exact
  have split := totalCost_split at_
  have total := h.total
  unfold State.free clearOooQ
  rw [clear_fold cfx.oooQ s (by omega)]
  constructor
  · intro other mem
    exact h.sets other (List.mem_of_mem_eraseIdx mem)
  · dsimp only
    omega
  · exact h.guarded

theorem Balanced.new (h : Balanced p s) (nonce : Nonce) :
    Balanced p { s with sets := s.sets ++ [Conflux.new nonce] } := by
  constructor
  · intro cfx mem
    obtain old | fresh := List.mem_append.mp mem
    · exact h.sets cfx old
    · obtain rfl := List.mem_singleton.mp fresh
      exact accounted_new nonce
  · rw [h.total]
    simp [totalCost, Conflux.new]
  · exact h.guarded

theorem Balanced.step {e : Event} {t : State} (h : Balanced p s) (action : s.step p e = some t) :
    Balanced p t := by
  cases e with
  | new nonce =>
      obtain rfl := Option.some.inj action
      exact h.new nonce
  | link i legs =>
      obtain ⟨cfx, at_, action⟩ := Option.bind_eq_some_iff.mp action
      split at action
      · rename_i next linked
        obtain rfl := Option.some.inj action
        obtain ⟨rfl, -⟩ := tryFinalizeSet_linked linked
        obtain ⟨alg, eq⟩ := addLegs_eq cfx legs
        apply h.setAt at_
        · rw [eq]
        · rw [eq]
      · cases action
  | relayMsg i circ msg cc =>
      obtain ⟨cfx, at_, rfl⟩ := Option.map_eq_some_iff.mp action
      exact h.relayMsg at_ circ msg cc
  | switch i circ relativeSeq =>
      obtain ⟨cfx, at_, rfl⟩ := Option.map_eq_some_iff.mp action
      exact h.setAt at_ rfl rfl
  | dequeue i =>
      obtain ⟨cfx, at_, rfl⟩ := Option.map_eq_some_iff.mp action
      exact h.dequeue at_
  | close i circ cc =>
      obtain ⟨cfx, at_, rfl⟩ := Option.map_eq_some_iff.mp action
      obtain ⟨queue, cost⟩ := cfxDelLeg_queue cc cfx circ
      exact h.setAt at_ queue cost
  | free i =>
      obtain ⟨cfx, at_, rfl⟩ := Option.map_eq_some_iff.mp action
      exact h.free at_

theorem Balanced.reach (run : (State.machine p).Reach (fun _ _ => True) State.initial s) : Balanced p s :=
  run.invariant Balanced.initial fun _ _ _ h _ action => h.step action

/-- Every set's counter is the cost of its queue, the shared counter is the sum over all sets, no
subtraction takes more than there is, and a queue holds less than the cap and one message of it. -/
theorem ooo_queues_accounted (run : (State.machine p).Reach (fun _ _ => True) State.initial s) :
    (∀ cfx ∈ s.sets, cfx.oooQAllocCost = (cfx.oooQ.map (msgAllocCost p)).sum) ∧
      s.totalOooQBytes = (s.sets.map (·.oooQAllocCost)).sum ∧ s.underflow = false ∧
      ∀ cfx ∈ s.sets, cfx.oooQ = [] ∨
        ∃ m ∈ cfx.oooQ, cfx.oooQAllocCost < p.maxOooq + msgAllocCost p m := by
  have balanced := Balanced.reach run
  exact ⟨fun cfx mem => (balanced.sets cfx mem).exact, balanced.total, balanced.guarded,
    fun cfx mem => (balanced.sets cfx mem).capped⟩

def freshLeg (circ : CircId) : PendingLeg := { legNew circ (newLink 7 0 0 .highThroughput) with linked := true }

theorem queued_message_accounted : ∃ s, (State.machine .consensus).Reach (fun _ _ => True) State.initial s ∧
    s.sets.map (·.oooQ.length) = [1, 0] ∧ s.totalOooQBytes = 67 ∧ s.underflow = false := by
  obtain ⟨s, run, queues, costs⟩ := Machine.exists_of_run (State.machine .consensus) (fun _ _ => True)
    State.initial
    (P := fun s => s.sets.map (·.oooQ.length) = [1, 0] ∧ s.sets.map (·.oooQAllocCost) = [67, 0])
    [.new 7, .new 8, .link 0 [freshLeg 1, freshLeg 2], .link 1 [freshLeg 3], .switch 0 2 1,
      .relayMsg 0 2 ⟨.data, 5, [1, 2, 3]⟩ ⟨0, 0, 31, false⟩, .switch 1 3 4,
      .relayMsg 1 3 ⟨.data, 6, [4]⟩ ⟨0, 0, 31, false⟩, .free 1, .new 8]
    (by decide +kernel)
  obtain ⟨-, total, guarded, -⟩ := ooo_queues_accounted run
  refine ⟨s, run, queues, ?_, guarded⟩
  rw [total, costs]
  rfl

end TorJet.Accounting
