import TorJet.Conflux.Flow
import TorJet.Conflux.LinkAgree

/-!
# In-order delivery over a fixed set of legs

Once a set is linked, and as long as only traffic moves on it, what an endpoint releases is a prefix
of what its peer sent, whatever the deciders choose and however the legs interleave.
-/

namespace TorJet
open Smartlist Base

def Event.isTraffic : Event → Bool
  | .send .. | .canSend .. | .tune .. | .updateRtt .. => true
  | .recv _ _ _ _ fails => fails.isNone
  | .close .. | .launch .. | .opened .. => false

/-- One direction of the exchange, from `snd` to `rcv`. -/
structure Delivers (first : Nat) (snd rcv : Endpoint) (chan : CircId → List Cell) : Prop where
  coherent : (flow first snd rcv chan).Coherent
  delivered : rcv.cfx.lastSeqDelivered = first + rcv.released.length
  ordered : rcv.cfx.QueueOrdered
  traffic : ∀ c, ∀ cell ∈ chan c, cell.IsTraffic
  shared : ∀ c, snd.Known c → rcv.Known c
  known : ∀ c, chan c ≠ [] → rcv.Known c
  whole : rcv.closes = [] → ∀ c, rcv.Known c → rcv.Listens c
  complete : rcv.closes = [] → (flow first snd rcv chan).Complete
  stuck : rcv.closes = [] → ∀ a, (a, rcv.cfx.lastSeqDelivered + 1) ∉ rcv.cfx.queued

namespace Delivers
variable {first : Nat} {snd snd' rcv rcv' : Endpoint} {chan : CircId → List Cell} {circ : CircId}
  (h : Delivers first snd rcv chan)
include h

theorem sender (coherent : (flow first snd' rcv chan).Coherent)
    (complete : (flow first snd rcv chan).Complete → (flow first snd' rcv chan).Complete)
    (known : ∀ c, snd'.Known c ↔ snd.Known c) : Delivers first snd' rcv chan :=
  { h with
    coherent := coherent
    shared := fun c isKnown => h.shared c ((known c).mp isKnown)
    complete := fun none => complete (h.complete none) }

theorem send {m : RelayMsg} {origCirc : CircId} {r : Endpoint × CircId × List Cell}
    (effect : SendEffect snd origCirc m r) (synced : Synced snd rcv chan) (nodup : snd.used.Nodup)
    (curr : ∀ c, snd.cfx.currLeg = some c → c ∈ snd.cfx.circs) (isLeg : origCirc ∈ snd.cfx.circs) :
    Delivers first r.1 rcv (Function.update chan r.2.1 (chan r.2.1 ++ r.2.2)) := by
  obtain ⟨coherent, complete, -⟩ := effect.flow h.coherent synced
  obtain ⟨known, carries⟩ : (∀ c, r.1.Known c ↔ snd.Known c) ∧ (r.2.2 ≠ [] → r.2.1 ∈ snd.cfx.circs) := by
    rcases effect.sends nodup curr isLeg with sends | ⟨shrinks, none, -⟩
    · exact ⟨sends.shape.known, fun _ => sends.mem⟩
    · exact ⟨shrinks.known, fun some => absurd none some⟩
  exact
    { h with
      coherent := coherent
      traffic := fun c cell mem => by
        by_cases same : c = r.2.1
        · subst same
          rw [Function.update_self, List.mem_append] at mem
          exact mem.elim (h.traffic _ cell) (effect.traffic cell)
        · rw [Function.update_of_ne same] at mem
          exact h.traffic c cell mem
      shared := fun c isKnown => h.shared c ((known c).mp isKnown)
      known := fun c nonempty => by
        by_cases same : c = r.2.1
        · subst same
          rw [Function.update_self] at nonempty
          by_cases quiet : r.2.2 = []
          · rw [quiet, List.append_nil] at nonempty
            exact h.known _ nonempty
          · exact h.shared _ (.inl (carries quiet))
        · rw [Function.update_of_ne same] at nonempty
          exact h.known c nonempty
      complete := fun none => complete
        (fun _ quiet => h.whole none _ (h.shared _ (.inl (carries quiet)))) (h.complete none) }

theorem receiver (listens : ∀ c, rcv'.Listens c → rcv.Listens c ∧ rcv'.recvCtr c = rcv.recvCtr c)
    (released : rcv'.released = rcv.released) (oooQ : rcv'.cfx.oooQ = rcv.cfx.oooQ)
    (delivered : rcv'.cfx.lastSeqDelivered = rcv.cfx.lastSeqDelivered)
    (known : ∀ c, rcv'.Known c ↔ rcv.Known c)
    (open_ : rcv'.closes = [] → rcv.closes = [] ∧ ∀ c, rcv.Listens c → rcv'.Listens c) :
    Delivers first snd rcv' chan := by
  obtain ⟨coherent, complete⟩ := shrinks_flow listens released oooQ h.coherent
  exact
    { coherent := coherent
      delivered := by rw [delivered, released, h.delivered]
      ordered := by
        rw [Conflux.QueueOrdered, oooQ]
        exact h.ordered
      traffic := h.traffic
      shared := fun c isKnown => (known c).mpr (h.shared c isKnown)
      known := fun c nonempty => (known c).mpr (h.known c nonempty)
      whole := fun none c isKnown =>
        (open_ none).2 c (h.whole (open_ none).1 c ((known c).mp isKnown))
      complete := fun none => complete (h.complete (open_ none).1) fun c listening gone =>
        absurd ((open_ none).2 c listening) gone
      stuck := fun none => by
        rw [queued_congr oooQ, delivered]
        exact h.stuck (open_ none).1 }

theorem popped {cell : Cell} {rest : List Cell} (head : chan circ = cell :: rest) :
    (∀ c, ∀ cell ∈ Function.update chan circ rest c, cell.IsTraffic) ∧
      ∀ c, Function.update chan circ rest c ≠ [] → rcv.Known c := by
  have here := pop_subset head
  refine ⟨fun c cell mem => h.traffic c cell (here c mem), fun c nonempty => h.known c fun empty => ?_⟩
  exact nonempty (List.eq_nil_of_subset_nil (empty ▸ here c))

theorem absorb {cell : Cell} {rest : List Cell} (head : chan circ = cell :: rest)
    (absorbs : Absorbs none first snd rcv rcv' chan (Function.update chan circ rest)) :
    Delivers first snd rcv' (Function.update chan circ rest) := by
  obtain ⟨traffic, known⟩ := h.popped head
  exact
    { coherent := absorbs.coherent
      delivered := absorbs.delivered
      ordered := absorbs.ordered h.ordered
      traffic := traffic
      shared := fun c isKnown => (absorbs.shape.known c).mpr (h.shared c isKnown)
      known := fun c nonempty => (absorbs.shape.known c).mpr (known c nonempty)
      whole := fun none c isKnown => (absorbs.shape.listens c).mpr
        (h.whole (absorbs.closes ▸ none) c ((absorbs.shape.known c).mp isKnown))
      complete := fun none => absorbs.complete (h.complete (absorbs.closes ▸ none))
      stuck := fun none => absorbs.stuck rfl h.ordered (h.stuck (absorbs.closes ▸ none)) }

theorem abandon {cell : Cell} {rest : List Cell} {mid : Endpoint} (head : chan circ = cell :: rest)
    (coherent : (flow first snd mid (Function.update chan circ rest)).Coherent)
    (known : ∀ c, mid.Known c ↔ rcv.Known c) (before : rcv.SameRecord mid) (shrinks : mid.Shrinks rcv')
    (after : mid.SameRecord rcv') (recorded : rcv'.closes ≠ []) :
    Delivers first snd rcv' (Function.update chan circ rest) := by
  obtain ⟨traffic, isKnown⟩ := h.popped head
  have same : ∀ c, rcv'.Known c ↔ rcv.Known c := fun c => (shrinks.known c).trans (known c)
  exact
    { coherent := (shrinks_flow shrinks.listens after.released after.oooQ coherent).1
      delivered := by
        rw [after.lastSeqDelivered, before.lastSeqDelivered, after.released, before.released, h.delivered]
      ordered := by
        rw [Conflux.QueueOrdered, after.oooQ, before.oooQ]
        exact h.ordered
      traffic := traffic
      shared := fun c k => (same c).mpr (h.shared c k)
      known := fun c nonempty => (same c).mpr (isKnown c nonempty)
      whole := fun none => absurd none recorded
      complete := fun none => absurd none recorded
      stuck := fun none => absurd none recorded }

end Delivers

theorem Side.forall_of {P : Side → Prop} (s : Side) (here : P s) (there : P s.peer) : ∀ t, P t := by
  intro t
  cases s <;> cases t <;> assumption

namespace World
variable {p : Params} {first : Side → Nat} {w w' : World} {circ : CircId}

structure Exchange (first : Side → Nat) (w : World) : Prop where
  linking : w.Linking
  unlinked : ∀ s, (w.ep s).unlinked = []
  reasons : ∀ s, ∀ r ∈ (w.ep s).closes, r.2 = .oooqAtMaximum ∨ r.2 = .switchTooHigh
  delivers : ∀ s, Delivers (first s) (w.ep s.peer) (w.ep s) (w.chan s)

theorem Linking.synced (h : w.Linking) (s : Side) : Synced (w.ep s) (w.ep s.peer) (w.chan s.peer) := by
  cases s
  · exact h.toExitSynced
  · exact h.toClientSynced

theorem Exchange.step {s : Side} (h : w.Exchange first) (linking : w'.Linking)
    (peer : w'.ep s.peer = w.ep s.peer) (unlinked : (w'.ep s).unlinked = [])
    (reasons : ∀ r ∈ (w'.ep s).closes, r.2 = .oooqAtMaximum ∨ r.2 = .switchTooHigh)
    (sends : Delivers (first s.peer) (w'.ep s) (w.ep s.peer) (w'.chan s.peer))
    (receives : Delivers (first s) (w.ep s.peer) (w'.ep s) (w'.chan s)) : w'.Exchange first where
  linking := linking
  unlinked := Side.forall_of s unlinked (by rw [peer]; exact h.unlinked s.peer)
  reasons := Side.forall_of s reasons (by rw [peer]; exact h.reasons s.peer)
  delivers := Side.forall_of s (by rw [peer]; exact receives)
    (by rw [peer, Side.peer_peer]; exact sends)

theorem Exchange.sending (h : w.Exchange first) (s : Side) :
    Delivers (first s.peer) (w.ep s) (w.ep s.peer) (w.chan s.peer) := by
  have := h.delivers s.peer
  rwa [Side.peer_peer] at this

theorem Exchange.hears {s : Side} (h : w.Exchange first) {cell : Cell} {rest : List Cell}
    (head : w.chan s circ = cell :: rest) (hears : (w.ep s).hears s circ = true) :
    circ ∈ (w.ep s).cfx.circs ∧ (w.ep s).closed = false ∧ cell.IsTraffic := by
  have known := (h.delivers s).known circ (by rw [head]; exact List.cons_ne_nil _ _)
  have noPending : (w.ep s).pending = [] := by rw [Endpoint.pending, h.unlinked]; rfl
  refine ⟨?_, ?_, (h.delivers s).traffic circ cell (by rw [head]; exact List.mem_cons_self)⟩
  · unfold Endpoint.hears at hears
    split at hears
    · simp only [Bool.and_eq_true, decide_eq_true_eq] at hears
      exact absurd known.mem_used hears.2
    · simp only [Bool.or_eq_true, Bool.and_eq_true, decide_eq_true_eq, noPending,
        List.not_mem_nil, or_false] at hears
      rcases hears with mem | ⟨_, notRetired⟩
      · exact mem
      · exact known.resolve_right notRetired
  · rw [← Bool.not_eq_true]
    intro closed
    simp only [Endpoint.hears, closed, if_true, Bool.and_eq_true, decide_eq_true_eq] at hears
    exact hears.2 known.mem_used

section Acted
variable (w) (s : Side) (ep : Endpoint) (circ : CircId) (cells : List Cell)

theorem push_setEp_self : ((w.setEp s ep).push s.peer circ cells).ep s = ep := Function.update_self _ _ _

theorem setEp_peer : (w.setEp s ep).ep s.peer = w.ep s.peer := Function.update_of_ne s.peer_ne _ _

theorem push_chan_peer : (w.push s.peer circ cells).chan s.peer =
    Function.update (w.chan s.peer) circ (w.chan s.peer circ ++ cells) := Function.update_self _ _ _

theorem push_chan_self : (w.push s.peer circ cells).chan s = w.chan s :=
  Function.update_of_ne s.peer_ne.symm _ _

theorem pop_chan_self : (w.pop s circ).chan s = Function.update (w.chan s) circ (w.chan s circ).tail :=
  Function.update_self _ _ _

theorem pop_chan_peer : (w.pop s circ).chan s.peer = w.chan s.peer := Function.update_of_ne s.peer_ne _ _

end Acted

theorem mem_push {s t : Side} {cells : List Cell} {cell : Cell} {c : CircId}
    (mem : cell ∈ (w.push s circ cells).chan t c) : cell ∈ w.chan t c ∨ cell ∈ cells := by
  unfold push at mem
  dsimp only at mem
  by_cases side : t = s
  · subst side
    rw [Function.update_self] at mem
    by_cases same : c = circ
    · subst same
      rwa [Function.update_self, List.mem_append] at mem
    · rw [Function.update_of_ne same] at mem
      exact .inl mem
  · rw [Function.update_of_ne side] at mem
    exact .inl mem

theorem mem_pop {s t : Side} {c : CircId} {cell x : Cell} {rest : List Cell}
    (head : w.chan s circ = cell :: rest) (mem : x ∈ (w.pop s circ).chan t c) :
    x ∈ w.chan t c := by
  unfold pop at mem
  dsimp only at mem
  by_cases side : t = s
  · subst side
    rw [Function.update_self, head] at mem
    exact pop_subset head c mem
  · rwa [Function.update_of_ne side] at mem

theorem exchange_send {s : Side} {m : RelayMsg} (h : w.Exchange first)
    (action : step p w (.send s circ m) = some w') : w'.Exchange first := by
  have linking := linking_send h.linking action
  simp only [World.step] at action
  split at action
  · cases action
  · rename_i allowed
    simp only [Bool.or_eq_true, decide_eq_true_eq, not_or, not_not] at allowed
    obtain rfl := Option.some.inj action
    have nodup := h.linking.used s
    have curr := h.linking.curr s
    have effect := sendMsg_effect (p := p) circ m (Endpoint.circs_nodup nodup) curr
    have shape := effect.sends nodup curr allowed.1.2
    obtain ⟨-, -, closes⟩ := effect.flow (h.sending s).coherent (h.linking.synced s)
    obtain ⟨released, oooQ, delivered⟩ := effect.keeps
    have sends := (h.sending s).send effect (h.linking.synced s) nodup curr allowed.1.2
    generalize sendMsg p (w.ep s) circ m = r at *
    have here := push_setEp_self w s r.1 r.2.1 r.2.2
    refine h.step linking (setEp_peer w s r.1) ?_ ?_ ?_ ?_
    · rw [here]
      rcases shape with same | ⟨shrinks, -⟩
      · exact same.shape.unlinked.trans (h.unlinked s)
      · exact List.eq_nil_of_subset_nil (h.unlinked s ▸ shrinks.unlinked)
    · rw [here]
      rcases closes with same | new
      · rw [same]
        exact h.reasons s
      · rw [new]
        rintro reason mem
        rcases List.mem_cons.mp mem with rfl | old
        · exact .inr rfl
        · exact h.reasons s reason old
    · rw [here, push_chan_peer]
      exact sends
    · rw [here, push_chan_self]
      rcases shape with same | ⟨shrinks, -, recorded, -⟩
      · refine (h.delivers s).receiver
          (fun c listening => ⟨(same.shape.listens c).mp listening, congrFun same.recvCtr c⟩)
          released oooQ delivered same.shape.known fun none => ⟨?_, fun c => (same.shape.listens c).mpr⟩
        rcases closes with eq | new
        · exact eq ▸ none
        · rw [new] at none
          cases none
      · exact (h.delivers s).receiver shrinks.listens released oooQ delivered shrinks.known
          fun none => absurd none recorded

theorem Exchange.idle {s : Side} {ep : Endpoint} (h : w.Exchange first)
    (linking : (w.setEp s ep).Linking) (shape : (w.ep s).SameShape ep)
    (record : (w.ep s).SameRecord ep) (closes : ep.closes = (w.ep s).closes)
    (recvCtr : ep.recvCtr = (w.ep s).recvCtr)
    (sends : (flow (first s.peer) ep (w.ep s.peer) (w.chan s.peer)).Coherent ∧
      ((flow (first s.peer) (w.ep s) (w.ep s.peer) (w.chan s.peer)).Complete →
        (flow (first s.peer) ep (w.ep s.peer) (w.chan s.peer)).Complete)) :
    (w.setEp s ep).Exchange first := by
  have here : (w.setEp s ep).ep s = ep := Function.update_self _ _ _
  refine h.step linking (setEp_peer w s ep) ?_ ?_ ?_ ?_
  · rw [here, shape.unlinked]
    exact h.unlinked s
  · rw [here, closes]
    exact h.reasons s
  · rw [here]
    exact (h.sending s).sender sends.1 sends.2 shape.known
  · rw [here]
    exact (h.delivers s).receiver
      (fun c listening => ⟨(shape.listens c).mp listening, congrFun recvCtr c⟩) record.released
      record.oooQ record.lastSeqDelivered shape.known
      fun none => ⟨closes ▸ none, fun c => (shape.listens c).mpr⟩

theorem exchange_canSend {s : Side} (h : w.Exchange first)
    (action : step p w (.canSend s) = some w') : w'.Exchange first := by
  have linking := linking_canSend h.linking action
  simp only [World.step] at action
  split at action
  · cases action
  · obtain rfl := Option.some.inj action
    have settled := (decideNextCirc_spec p (w.ep s).net (w.ep s).cfx).1
    obtain ⟨coherent, pending, ahead⟩ := settled_flow (h.sending s).coherent settled
    refine h.idle linking ⟨settled.circs, rfl, rfl, rfl⟩
      ⟨rfl, rfl, settled.record.1, settled.record.2⟩ rfl
      (recvCtr_congr settled.legs rfl) ⟨coherent, fun full => ?_⟩
    rw [Flow.Complete, pending, ahead]
    exact full

theorem exchange_tune {s : Side} {state : CircState} (h : w.Exchange first)
    (action : step p w (.tune s circ state) = some w') : w'.Exchange first := by
  have linking := linking_tune h.linking action
  obtain rfl := Option.some.inj action
  exact h.idle linking ⟨rfl, rfl, rfl, rfl⟩ ⟨rfl, rfl, rfl, rfl⟩ rfl (recvCtr_congr rfl rfl)
    ⟨(h.sending s).coherent, id⟩

theorem exchange_updateRtt {s : Side} {rtt : Nat} (h : w.Exchange first)
    (action : step p w (.updateRtt s circ rtt) = some w') : w'.Exchange first := by
  have linking := linking_updateRtt h.linking action
  simp only [World.step] at action
  split at action
  · cases action
  · obtain rfl := Option.some.inj action
    have circs : (updateRtt (w.ep s).cfx circ rtt).circs = (w.ep s).cfx.circs :=
      circs_modifyLeg fun _ => by rfl
    obtain ⟨sent, recv⟩ := ctr_modifyLeg_eq (w.ep s) circ
      (f := fun leg => { leg with circRttsUsec := rtt }) (fun _ => rfl) (fun _ => rfl) fun _ => rfl
    have same := sender_flow (first s.peer) { (w.ep s) with cfx := updateRtt (w.ep s).cfx circ rtt }
      (w.ep s.peer) (w.chan s.peer) circs rfl rfl sent
    refine h.idle linking ⟨circs, rfl, rfl, rfl⟩ ⟨rfl, rfl, rfl, rfl⟩ rfl recv ?_
    rw [same]
    exact ⟨(h.sending s).coherent, id⟩

theorem traffic_outcome {n : Nat} {snd rcv : Endpoint} {chan : CircId → List Cell} {cell : Cell}
    {rest : List Cell} {s : Side} {mayLaunch : Bool} {now : Nat} (head : chan circ = cell :: rest)
    (nodup : rcv.used.Nodup) (isLeg : circ ∈ rcv.cfx.circs) (opened : rcv.closed = false)
    (traffic : cell.IsTraffic) (coherent : (flow n snd rcv chan).Coherent)
    (delivered : rcv.cfx.lastSeqDelivered = n + rcv.released.length) :
    Absorbs none n snd rcv (recvCell p s mayLaunch now none rcv circ cell).1 chan
        (Function.update chan circ rest) ∨
      ∃ k, (recvCell p s mayLaunch now none rcv circ cell).1 =
          (rcv.received circ k).closeCirc s mayLaunch circ .oooqAtMaximum ∧
        (flow n snd (rcv.received circ k) (Function.update chan circ rest)).Coherent := by
  cases cell with
  | relay m =>
      exact (recvRelay_effect p s mayLaunch none rcv circ m).flow head isLeg opened coherent delivered
  | switch relativeSeq => exact .inl (switch_absorbs head nodup isLeg opened coherent delivered)
  | link | linked | linkedAck => exact traffic.elim

theorem Exchange.inStep (h : w.Exchange first) (e : Event) (traffic : e.isTraffic = true) :
    InStep p w e := by
  cases e with
  | recv s circ now mayLaunch fails =>
      intro cell inFront
      have isTraffic := (h.delivers s).traffic circ cell (List.mem_of_head? inFront)
      cases cell with
      | relay m =>
          intro _ isPending
          rw [Endpoint.pending, h.unlinked] at isPending
          cases isPending
      | switch => trivial
      | link | linked | linkedAck => exact isTraffic.elim
  | send | canSend | tune | updateRtt => trivial
  | close | launch | opened => cases traffic

section Received
variable {s : Side} {ep : Endpoint} {cell : Cell} {rest : List Cell}
  (head : w.chan s circ = cell :: rest)
include head

theorem received_views (ep : Endpoint) :
    ((w.pop s circ).setEp s ep).ep s = ep ∧ ((w.pop s circ).setEp s ep).ep s.peer = w.ep s.peer ∧
      ((w.pop s circ).setEp s ep).chan s = Function.update (w.chan s) circ rest ∧
      ((w.pop s circ).setEp s ep).chan s.peer = w.chan s.peer := by
  have tail : (w.chan s circ).tail = rest := by rw [head]; rfl
  refine ⟨Function.update_self _ _ _, setEp_peer (w.pop s circ) s ep, ?_, pop_chan_peer w s circ⟩
  rw [← tail]
  exact pop_chan_self w s circ

variable (h : w.Exchange first)
include h

theorem Exchange.absorbed (linking : ((w.pop s circ).setEp s ep).Linking)
    (absorbs : Absorbs none (first s) (w.ep s.peer) (w.ep s) ep (w.chan s)
      (Function.update (w.chan s) circ rest))
    (sentCtr : ep.sentCtr = (w.ep s).sentCtr) : ((w.pop s circ).setEp s ep).Exchange first := by
  obtain ⟨here, peer, chanHere, chanPeer⟩ := received_views head ep
  have same := sender_flow (first s.peer) _ (w.ep s.peer) (w.chan s.peer)
    absorbs.shape.circs absorbs.sent absorbs.currLeg sentCtr
  refine h.step linking peer ?_ ?_ ?_ ?_
  · rw [here, absorbs.shape.unlinked]
    exact h.unlinked s
  · rw [here, absorbs.closes]
    exact h.reasons s
  · rw [here, chanPeer]
    refine (h.sending s).sender ?_ ?_ absorbs.shape.known
    · rw [same]
      exact (h.sending s).coherent
    · rw [same]
      exact id
  · rw [here, chanHere]
    exact (h.delivers s).absorb head absorbs

theorem Exchange.abandoned {mayLaunch : Bool} {n : Nat} (isLeg : circ ∈ (w.ep s).cfx.circs)
    (eq : ep = ((w.ep s).received circ n).closeCirc s mayLaunch circ .oooqAtMaximum)
    (linking : ((w.pop s circ).setEp s ep).Linking)
    (coherent : (flow (first s) (w.ep s.peer) ((w.ep s).received circ n)
      (Function.update (w.chan s) circ rest)).Coherent) :
    ((w.pop s circ).setEp s ep).Exchange first := by
  obtain ⟨here, peer, chanHere, chanPeer⟩ := received_views head ep
  have shape := received_shape (w.ep s) circ n
  have stillLeg : circ ∈ ((w.ep s).received circ n).cfx.circs := shape.circs ▸ isLeg
  have usedMid : ((w.ep s).received circ n).used.Nodup := shape.used ▸ h.linking.used s
  have currMid : ∀ c, ((w.ep s).received circ n).cfx.currLeg = some c →
      c ∈ ((w.ep s).received circ n).cfx.circs := fun c current => by
    rw [shape.circs]
    exact h.linking.curr s c current
  have same := sender_flow (first s.peer) _ (w.ep s.peer) (w.chan s.peer) shape.circs rfl rfl
    (received_sentCtr (w.ep s) circ n)
  have closing := closeCirc_flow (first s.peer) (w.ep s.peer) (w.chan s.peer)
    s mayLaunch circ .oooqAtMaximum usedMid currMid (by rw [same]; exact (h.sending s).coherent)
  rw [same, ← eq] at closing
  have shrinks := closeCirc_shrinks usedMid s mayLaunch circ .oooqAtMaximum
  have record := closeCirc_record s mayLaunch ((w.ep s).received circ n) circ .oooqAtMaximum
  have recorded := closeCirc_closes s mayLaunch .oooqAtMaximum (.inl stillLeg)
  rw [← eq] at shrinks record recorded
  refine h.step linking peer ?_ ?_ ?_ ?_
  · rw [here]
    exact List.eq_nil_of_subset_nil (h.unlinked s ▸ shrinks.unlinked)
  · rw [here, recorded]
    intro reason mem
    rcases List.mem_cons.mp mem with rfl | old
    · exact .inl rfl
    · exact h.reasons s reason old
  · rw [here, chanPeer]
    exact (h.sending s).sender closing.1 closing.2 fun c => (shrinks.known c).trans (shape.known c)
  · rw [here, chanHere]
    exact (h.delivers s).abandon head coherent shape.known ⟨rfl, rfl, rfl, rfl⟩ shrinks record
      (by rw [recorded]; exact List.cons_ne_nil _ _)

end Received

theorem exchange_recv {s : Side} {now : Nat} {mayLaunch : Bool} {fails : Option Nat}
    (h : w.Exchange first) (traffic : (Event.recv s circ now mayLaunch fails).isTraffic = true)
    (action : step p w (.recv s circ now mayLaunch fails) = some w') : w'.Exchange first := by
  have linking := linking_recv h.linking (h.inStep _ traffic) action
  obtain rfl : fails = none := by simpa [Event.isTraffic] using traffic
  obtain ⟨cell, rest, head, hears, r, eq, rfl | ⟨failing, -⟩⟩ := step_recv action
  · obtain ⟨isLeg, opened, isTraffic⟩ := h.hears head hears
    have nodup := h.linking.used s
    obtain ⟨takes, answer⟩ := recvCell_takes p s circ nodup (h.linking.curr s) cell
      (fun l eq => (eq ▸ isTraffic).elim) (fun l eq => (eq ▸ isTraffic).elim)
      fun m _ _ => Endpoint.notMem_pending nodup isLeg
    rw [handled, eq, answer, push_nil] at linking ⊢
    rcases traffic_outcome (p := p) (s := s) head nodup isLeg
      opened isTraffic (h.delivers s).coherent (h.delivers s).delivered with absorbs | ⟨n, eq, coherent⟩
    · exact Exchange.absorbed head h linking absorbs takes.sentCtr
    · exact Exchange.abandoned head h isLeg eq linking coherent
  · cases failing

theorem step_exchange {e : Event} (h : w.Exchange first) (traffic : e.isTraffic = true)
    (action : step p w e = some w') : w'.Exchange first := by
  cases e with
  | send => exact exchange_send h action
  | canSend => exact exchange_canSend h action
  | tune => exact exchange_tune h action
  | updateRtt => exact exchange_updateRtt h action
  | recv => exact exchange_recv h traffic action
  | close | launch | opened => cases traffic

theorem LinkedStart.exchange {start : World} (h : start.LinkedStart) :
    start.Exchange fun s => (start.ep s).cfx.lastSeqDelivered where
  linking := h.linking
  unlinked := h.unlinked
  reasons s r mem := by
    rw [(h.fresh s).2.2.2] at mem
    cases mem
  delivers s := by
    have known (t : Side) (c : CircId) : (start.ep t).Known c ↔ c ∈ (start.ep t).cfx.circs := by
      simp [Endpoint.Known, (h.fresh t).2.2.1]
    have back := Side.peer_peer s
    have bound := h.bound s.peer
    have level := h.current s.peer
    have idle := h.idle s.peer
    rw [back] at bound level idle
    have sent := (h.fresh s.peer).1
    have released := (h.fresh s).2.1
    have queued : (start.ep s).cfx.queued = 0 := by simp [Conflux.queued, h.queue s]
    have last : (flow (start.ep s).cfx.lastSeqDelivered (start.ep s.peer) (start.ep s)
        (start.chan s)).last = (start.ep s).cfx.lastSeqDelivered := by
      simp [Flow.last, flow, sent]
    have pending : (flow (start.ep s).cfx.lastSeqDelivered (start.ep s.peer) (start.ep s)
        (start.chan s)).pending = 0 := by
      simp [Flow.pending, Flow.flight, Flow.lane, flow, tokens, queued, h.empty, decode]
    have ahead : (flow (start.ep s).cfx.lastSeqDelivered (start.ep s.peer) (start.ep s)
        (start.chan s)).ahead = [] := by simp [Flow.ahead, flow, sent]
    exact
      { coherent :=
          { le_last := fun c mem => by
              rw [last]
              exact bound c (List.mem_toFinset.mp mem)
            current := fun c current => by
              rw [last]
              exact ⟨List.mem_toFinset.mpr (level c current).1, (level c current).2⟩
            idle := fun unset c mem => by
              rw [last]
              exact idle unset c (List.mem_toFinset.mp mem)
            released_prefix := by simp [flow, released]
            window := by
              rw [pending]
              exact Multiset.zero_le _ }
        delivered := by rw [released]; rfl
        ordered := by
          rw [Conflux.QueueOrdered, h.queue s]
          exact HeapOrder.ordered_nil
        traffic := fun c cell mem => by
          rw [h.empty] at mem
          cases mem
        shared := fun c isKnown => by
          rw [known] at isKnown ⊢
          exact back ▸ h.circs s.peer c isKnown
        known := fun c nonempty => absurd (h.empty s c) nonempty
        whole := fun _ c isKnown => ⟨h.opened s, .inl ((known s c).mp isKnown)⟩
        complete := fun _ => by
          rw [Flow.Complete, pending, ahead]
          rfl
        stuck := fun _ a mem => by
          rw [queued] at mem
          exact absurd mem (Multiset.notMem_zero _) }

def InOrder (w : World) (s : Side) : Prop :=
  (w.ep s).released <+: (w.ep s.peer).sent ∧
    ((w.ep s).closes = [] → (∀ c ∈ (w.ep s).cfx.circs, w.chan s c = []) →
      (w.ep s).released = (w.ep s.peer).sent) ∧
    ∀ r ∈ (w.ep s).closes, r.2 = .oooqAtMaximum ∨ r.2 = .switchTooHigh

theorem Exchange.inOrder (h : w.Exchange first) (s : Side) : w.InOrder s := by
  have rcv := h.delivers s
  refine ⟨rcv.coherent.released_prefix, fun none drained => ?_, h.reasons s⟩
  refine Flow.Coherent.released_eq_sent rcv.coherent (rcv.complete none) ?_ ?_
  · refine Finset.sum_eq_zero fun c mem => ?_
    have isLeg : c ∈ (w.ep s).cfx.circs := by
      rcases (Endpoint.mem_listening.mp mem).2 with isLeg | isPending
      · exact isLeg
      · rw [Endpoint.pending, h.unlinked] at isPending
        cases isPending
    simp [Flow.lane, flow, tokens, drained c isLeg, decode]
  · have stuck := rcv.stuck none
    rw [rcv.delivered] at stuck
    exact stuck

theorem LinkedStart.run_exchange {start : World} (linked : start.LinkedStart)
    (reach : (machine p).Reach (fun _ e => e.isTraffic = true) start w) :
    w.Exchange fun s => (start.ep s).cfx.lastSeqDelivered :=
  reach.invariant linked.exchange fun _ _ _ h traffic action => step_exchange h traffic action

end World
end TorJet
