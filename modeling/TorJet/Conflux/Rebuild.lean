import TorJet.Conflux.Delivery

/-!
# Rebuilding a set from nothing

When the last leg of a client's set closes, the client keeps the set with its delivered counter and
its queue and launches new legs for the same nonce, while the exit it reaches starts from zero.
-/

namespace TorJet
open Smartlist Base

structure Conflux.QueueSound (cfx : Conflux) : Prop where
  ordered : cfx.QueueOrdered
  early : ∀ m ∈ cfx.oooQ, 1 < m.seq

structure Endpoint.SoleLeg (cl : Endpoint) (circ : CircId) : Prop where
  opened : cl.closed = false
  alive : cl.cfx.inFullTeardown = false
  circs : cl.cfx.circs = [circ]
  current : ∀ c, cl.cfx.currLeg = some c → c = circ
  unlinked : cl.unlinked = []
  queue : cl.cfx.QueueSound

def Endpoint.rebuilt (cl : Endpoint) (circ : CircId) : Endpoint :=
  { cl.closeCirc .client true circ .external with sent := [], released := [], retired := [], closes := [] }

def Endpoint.absent : Endpoint where
  cfx := .new 0
  unlinked := []
  net _ := World.idleCirc
  closed := true
  sent := []
  released := []
  retired := []
  closes := []

def World.rebuilding (cl : Endpoint) (circ : CircId) : World where
  ep
    | .client => cl.rebuilt circ
    | .exit => .absent
  chan _ _ := []

def Event.isHandshake : Event → Bool
  | .launch .. | .opened .. | .canSend .. | .tune .. | .updateRtt .. => true
  | .recv _ _ _ _ fails => fails.isNone
  | .send .. | .close .. => false

structure World.Joined (w : World) : Prop where
  opened : ∀ s, (w.ep s).closed = false
  unlinked : ∀ s, (w.ep s).unlinked = []
  circs : ∀ s, ∀ c ∈ (w.ep s).cfx.circs, c ∈ (w.ep s.peer).cfx.circs
  empty : ∀ s c, w.chan s c = []
  closes : ∀ s, (w.ep s).closes = []

def World.Resumes (p : Params) (start : World) : Prop :=
  ∀ joined w, (machine p).Reach (fun _ e => e.isHandshake = true) start joined → joined.Joined →
    (machine p).Reach (fun _ e => e.isTraffic = true) joined w → w.InOrder .client

theorem rebuilt_spec {cl : Endpoint} {circ : CircId} (sole : cl.SoleLeg circ) :
    ∃ cfx, cl.rebuilt circ = { cl with
        cfx := cfx, sent := [], released := [], retired := [], closes := [] } ∧
      cfx.legs = [] ∧ cfx.currLeg = none ∧ cfx.inFullTeardown = false ∧
      cfx.oooQ = cl.cfx.oooQ ∧ cfx.lastSeqDelivered = cl.cfx.lastSeqDelivered := by
  obtain ⟨leg, found⟩ := exists_getLeg (show circ ∈ cl.cfx.circs by simp [sole.circs])
  have isCirc := getLeg_circ found
  have perm := circs_cfxDelLeg (cl.net circ).cc found
  rw [sole.circs, List.perm_singleton, List.cons_eq_cons] at perm
  have empty : (cfxDelLeg (cl.net circ).cc cl.cfx circ).1.legs = [] := List.map_eq_nil_iff.mp perm.2
  have survives : cl.survivesClose .client true circ = true := by
    simp [Endpoint.survivesClose, empty, sole.unlinked]
  obtain ⟨oooQ, delivered⟩ := cfxDelLeg_record (cl.net circ).cc cl.cfx circ
  have noPending : cl.getPending circ = none := by simp [Endpoint.getPending, sole.unlinked]
  refine ⟨(cfxDelLeg (cl.net circ).cc cl.cfx circ).1, ?_, empty, ?_, ?_, oooQ, delivered⟩
  · simp [Endpoint.rebuilt, Endpoint.closeCirc, noPending, found, Endpoint.linkedCircuitClosed,
      survives, isCirc]
  · simp only [cfxDelLeg, found]
    cases curr : cl.cfx.currLeg with
    | none => simp
    | some c => simp [sole.current c curr]
  · simp only [cfxDelLeg, found]
    exact sole.alive

/-! ## The queue over any run -/

section Queue
variable {p : Params} {side : Side} {mayLaunch : Bool} {now : Nat} {budget : Option Nat}
  {ep : Endpoint} {circ : CircId} (h : ep.cfx.QueueSound)
include h

end Queue

/-! ## A set that starts from zero -/

structure Endpoint.Blank (ep : Endpoint) : Prop where
  sent : ep.sent = []
  released : ep.released = []
  oooQ : ep.cfx.oooQ = []
  delivered : ep.cfx.lastSeqDelivered = 0
  legs : ∀ leg ∈ ep.cfx.legs, leg.lastSeqSent = 0 ∧ leg.lastSeqRecv = 0
  unlinked : ∀ leg ∈ ep.unlinked, leg.link.lastSeqnoSent = 0 ∧ leg.link.lastSeqnoRecv = 0
  retired : ep.closes = [] → ep.retired = []
  closed : ep.closed = true → ep.closes = [] → ep.cfx.legs = []

def Cell.Blank : Cell → Prop
  | .link l | .linked l => l.lastSeqnoSent = 0 ∧ l.lastSeqnoRecv = 0
  | .linkedAck => True
  | .relay _ | .switch _ => False

namespace Endpoint.Blank
variable {ep : Endpoint} {circ : CircId} (h : ep.Blank)
include h

theorem maxSeqSent : ep.cfx.getMaxSeqSent = 0 :=
  Nat.le_zero.mp (getMaxSeqSent_le fun leg mem => ((h.legs leg mem).1).le)

theorem teardown (why : CloseReason) : (ep.teardown circ why).Blank :=
  { h with
    retired := fun none => by cases none
    closed := fun _ none => by cases none }

theorem closeCirc (side : Side) (mayLaunch : Bool) (why : CloseReason) :
    (ep.closeCirc side mayLaunch circ why).Blank := by
  rcases closeCirc_cases side mayLaunch ep circ why with
    ⟨_, _, eq⟩ | ⟨_, eq⟩ | ⟨isPending, eq⟩ | ⟨leg, found, _, eq⟩
  · rw [eq]
    exact h
  · rw [eq]
    exact h.teardown why
  · rw [eq]
    obtain ⟨leg, -, perm⟩ := forget_unlinked isPending why
    exact
      { h with
        unlinked := fun l mem => h.unlinked l (perm.subset (List.mem_cons_of_mem _ mem))
        retired := fun none => by cases none
        closed := fun _ none => by cases none }
  · rw [eq]
    obtain ⟨oooQ, delivered⟩ := cfxDelLeg_record (ep.net leg.circ).cc ep.cfx leg.circ
    have fewer : ∀ l ∈ (ep.retire leg why).cfx.legs, l ∈ ep.cfx.legs := fun l mem => by
      rw [Endpoint.retire, cfxDelLeg_legs, getLeg_circ found] at mem
      exact (remove_perm found).subset (List.mem_cons_of_mem _ mem)
    exact
      { sent := h.sent
        released := h.released
        oooQ := oooQ.trans h.oooQ
        delivered := delivered.trans h.delivered
        legs := fun l mem => h.legs l (fewer l mem)
        unlinked := h.unlinked
        retired := fun none => by cases none
        closed := fun _ none => by cases none }

theorem getOrCreate (nonce : Nonce) : (ep.getOrCreate nonce).Blank := by
  unfold Endpoint.getOrCreate
  split
  · rename_i closed
    exact
      { sent := rfl
        released := rfl
        oooQ := rfl
        delivered := rfl
        legs := fun leg mem => by cases mem
        unlinked := fun leg mem => by cases mem
        retired := fun none => by
          change ep.cfx.legs ++ ep.retired = []
          rw [h.closed closed none, h.retired none]
          rfl
        closed := fun closed => by cases closed }
  · exact h

theorem finalized (opened : ep.closed = false) : ep.finalized.Blank := by
  obtain ⟨alg, eq⟩ := addLegs_eq ep.cfx ep.unlinked
  have legs : ep.finalized.cfx.legs = ep.cfx.legs ++ (drained ep.unlinked).map PendingLeg.toLeg := by
    rw [Endpoint.finalized, eq]
  exact
    { sent := h.sent
      released := h.released
      oooQ := by
        rw [Endpoint.finalized, eq]
        exact h.oooQ
      delivered := by
        rw [Endpoint.finalized, eq]
        exact h.delivered
      legs := fun leg mem => by
        rw [legs, List.mem_append] at mem
        rcases mem with old | new
        · exact h.legs leg old
        · obtain ⟨pending, isPending, rfl⟩ := List.mem_map.mp new
          exact (h.unlinked pending ((drained_perm ep.unlinked).subset isPending)).symm
      unlinked := fun leg mem => by cases mem
      retired := h.retired
      closed := fun closed => by
        rw [show ep.finalized.closed = ep.closed from rfl, opened] at closed
        cases closed }

theorem modifyPending {f : PendingLeg → PendingLeg}
    (zero : ∀ leg ∈ ep.unlinked, (f leg).link.lastSeqnoSent = 0 ∧ (f leg).link.lastSeqnoRecv = 0) :
    (ep.modifyPending circ f).Blank :=
  { h with
    unlinked := fun leg mem => by
      obtain ⟨old, oldMem, rfl⟩ := List.mem_map.mp mem
      split
      · exact zero old oldMem
      · exact h.unlinked old oldMem }

theorem modifyLeg {f : ConfluxLeg → ConfluxLeg} (sent : ∀ l, (f l).lastSeqSent = l.lastSeqSent)
    (recv : ∀ l, (f l).lastSeqRecv = l.lastSeqRecv) :
    ({ ep with cfx := ep.cfx.modifyLeg circ f } : Endpoint).Blank :=
  { h with
    legs := fun leg mem => by
      obtain ⟨old, oldMem, rfl⟩ := List.mem_map.mp mem
      split
      · rw [sent, recv]
        exact h.legs old oldMem
      · exact h.legs old oldMem
    closed := fun closed none => by
      change ep.cfx.legs.map _ = []
      rw [h.closed closed none]
      rfl }

end Endpoint.Blank

section RecvCell
variable {p : Params} {side : Side} {mayLaunch : Bool} {now : Nat} {ep : Endpoint} {circ : CircId}
  {l : LinkCell} (h : ep.Blank) (zero : l.lastSeqnoSent = 0 ∧ l.lastSeqnoRecv = 0)
include h zero

theorem processLink_blank :
    (processLink p side mayLaunch now ep circ l).1.Blank ∧
      ∀ cell ∈ (processLink p side mayLaunch now ep circ l).2, cell.Blank := by
  unfold processLink
  split
  · exact ⟨h.closeCirc side mayLaunch _, fun cell mem => by cases mem⟩
  · split
    · exact ⟨h.closeCirc side mayLaunch _, fun cell mem => by cases mem⟩
    · have created := h.getOrCreate l.nonce
      have opened : (ep.getOrCreate l.nonce).closed = false := by
        unfold Endpoint.getOrCreate
        split
        · rfl
        · rename_i notClosed
          simpa using notClosed
      dsimp only
      generalize ep.getOrCreate l.nonce = fresh at created opened ⊢
      have withLeg : ({ fresh with unlinked := fresh.unlinked ++
          [{ legNew circ l with linkSentUsec := now, linked := true }] } : Endpoint).Blank :=
        { created with
          unlinked := fun leg mem => by
            rcases List.mem_append.mp mem with old | new
            · exact created.unlinked leg old
            · rw [List.mem_singleton.mp new]
              exact zero }
      have answer : ∀ cell ∈ [Cell.linked (newLink l.nonce fresh.cfx.getMaxSeqSent
          fresh.cfx.lastSeqDelivered .minLatency)], cell.Blank := by
        intro cell mem
        rw [List.mem_singleton.mp mem]
        exact ⟨created.maxSeqSent, created.delivered⟩
      have logged : ({ fresh with closes := (circ, .tooManyLegs) :: fresh.closes } : Endpoint).Blank :=
        { created with
          retired := fun none => by cases none
          closed := fun _ none => by cases none }
      split
      · rename_i cfx accepted
        obtain ⟨rfl, -, -⟩ := tryFinalizeSet_linked accepted
        exact ⟨withLeg.finalized opened, answer⟩
      · exact ⟨withLeg, answer⟩
      · exact ⟨created.teardown _, fun cell mem => by cases mem⟩
      · refine ⟨?_, fun cell mem => by cases mem⟩
        split
        · exact created.teardown _
        · exact logged
      · refine ⟨?_, fun cell mem => by cases mem⟩
        split
        · exact created.teardown _
        · exact logged

theorem processLinked_blank (opened : ep.closed = false) :
    (processLinked p side mayLaunch now ep circ l).1.Blank ∧
      ∀ cell ∈ (processLinked p side mayLaunch now ep circ l).2, cell.Blank := by
  have ack : ∀ cell ∈ [Cell.linkedAck], cell.Blank := fun cell mem => by
    rw [List.mem_singleton.mp mem]
    trivial
  unfold processLinked
  split
  · exact ⟨h.closeCirc side mayLaunch _, fun cell mem => by cases mem⟩
  · split
    · exact ⟨h.closeCirc side mayLaunch _, fun cell mem => by cases mem⟩
    · split
      · exact ⟨h.closeCirc side mayLaunch _, fun cell mem => by cases mem⟩
      · split
        · exact ⟨h.closeCirc side mayLaunch _, fun cell mem => by cases mem⟩
        · rename_i new recorded
          have link : new.link = l := by
            unfold recordRttClient at recorded
            split at recorded
            · cases recorded
            · split at recorded
              · cases recorded
              · obtain rfl := Option.some.inj recorded
                rfl
          have answered : (ep.modifyPending circ fun _ => new).Blank :=
            h.modifyPending fun _ _ => by rw [link]; exact zero
          dsimp only
          split
          · rename_i cfx accepted
            obtain ⟨rfl, -, -⟩ := tryFinalizeSet_linked accepted
            exact ⟨answered.finalized opened, ack⟩
          · exact ⟨answered, ack⟩
          · exact ⟨answered, ack⟩
          · exact ⟨h.teardown _, fun cell mem => by cases mem⟩
          · exact ⟨h.closeCirc side mayLaunch _, fun cell mem => by cases mem⟩

end RecvCell

namespace World
variable {p : Params} {w w' : World} {circ : CircId}

structure Untouched (w : World) : Prop where
  linking : w.Linking
  blank : ∀ s, (w.ep s).Blank
  cells : ∀ s c, ∀ cell ∈ w.chan s c, cell.Blank

theorem Untouched.inStep (h : w.Untouched) {s : Side} {now : Nat} {mayLaunch : Bool}
    {fails : Option Nat} : InStep p w (.recv s circ now mayLaunch fails) := by
  intro cell inFront
  have zero := h.cells s circ cell (List.mem_of_head? inFront)
  cases cell with
  | link l =>
      intro _ _
      have created := (h.blank .exit).getOrCreate l.nonce
      rw [created.delivered, created.maxSeqSent]
      exact zero
  | relay | switch => exact zero.elim
  | linked | linkedAck => trivial

theorem Untouched.step {s : Side} (h : w.Untouched) (linking : w'.Linking)
    (peer : w'.ep s.peer = w.ep s.peer) (blank : (w'.ep s).Blank)
    (cells : ∀ t c, ∀ cell ∈ w'.chan t c, cell ∈ w.chan t c ∨ cell.Blank) : w'.Untouched where
  linking := linking
  blank := Side.forall_of s blank (by rw [peer]; exact h.blank s.peer)
  cells t c cell mem := (cells t c cell mem).elim (h.cells t c cell) id

theorem untouched_recv {s : Side} {now : Nat} {mayLaunch : Bool} {fails : Option Nat}
    (h : w.Untouched) (handshake : (Event.recv s circ now mayLaunch fails).isHandshake = true)
    (action : step p w (.recv s circ now mayLaunch fails) = some w') : w'.Untouched := by
  have linking := linking_recv h.linking h.inStep action
  obtain rfl : fails = none := by simpa [Event.isHandshake] using handshake
  obtain ⟨cell, rest, head, hears, r, eq, rfl | ⟨failing, -⟩⟩ := step_recv action
  · have zero := h.cells s circ cell (by rw [head]; exact List.mem_cons_self)
    obtain ⟨blank, answer⟩ : r.1.Blank ∧ ∀ cell ∈ r.2, cell.Blank := by
      rw [eq]
      cases cell with
      | link l => exact processLink_blank (h.blank s) zero
      | linked l =>
          by_cases opened : (w.ep s).closed = false
          · exact processLinked_blank (h.blank s) zero opened
          · -- a torn down set only hears new circuits, and only at the exit
            rw [Bool.not_eq_false] at opened
            simp only [Endpoint.hears, opened, if_true, Bool.and_eq_true, decide_eq_true_eq] at hears
            simp only [recvCell, processLinked, if_pos hears.1]
            exact ⟨(h.blank s).closeCirc s mayLaunch _, fun cell mem => by cases mem⟩
      | linkedAck =>
          refine ⟨?_, fun cell mem => by cases mem⟩
          simp only [recvCell, processLinkedAck]
          split
          · exact (h.blank s).closeCirc s mayLaunch _
          · split
            · exact (h.blank s).modifyLeg (fun _ => rfl) fun _ => rfl
            · exact (h.blank s).closeCirc s mayLaunch _
      | relay | switch => exact zero.elim
    refine h.step (s := s) linking (setEp_peer (w.pop s circ) s r.1) ?_ fun t c cell mem => ?_
    · rw [handled_ep]
      exact blank
    · rcases mem_push mem with old | new
      · exact .inl (mem_pop head old)
      · exact .inr (answer cell new)
  · cases failing

theorem Untouched.idle {s : Side} {ep : Endpoint} (h : w.Untouched) (linking : (w.setEp s ep).Linking)
    (blank : ep.Blank) : (w.setEp s ep).Untouched :=
  h.step (s := s) linking (setEp_peer w s ep) (by
    rw [show (w.setEp s ep).ep s = ep from Function.update_self _ _ _]
    exact blank)
    fun _ _ _ mem => .inl mem

theorem untouched_launch (h : w.Untouched) (action : step p w (.launch circ) = some w') :
    w'.Untouched := by
  have linking := linking_launch h.linking action
  simp only [step] at action
  split at action
  · cases action
  · obtain ⟨ep, launched, rfl⟩ := Option.map_eq_some_iff.mp action
    unfold launchLeg at launched
    split at launched
    · cases launched
    · obtain rfl := Option.some.inj launched
      have blank := h.blank .client
      exact h.idle linking
        { blank with
          unlinked := fun leg mem => by
            rcases List.mem_append.mp mem with old | new
            · exact blank.unlinked leg old
            · rw [List.mem_singleton.mp new]
              exact ⟨blank.maxSeqSent, blank.delivered⟩ }

theorem untouched_opened {now : Nat} (h : w.Untouched)
    (action : step p w (.opened circ now) = some w') : w'.Untouched := by
  have linking := linking_opened h.linking action
  simp only [step] at action
  split at action
  · cases action
  · rename_i leg found
    split at action
    · cases action
    · obtain rfl := Option.some.inj action
      have blank := h.blank .client
      have zero := blank.unlinked leg (List.mem_of_find?_eq_some found)
      refine h.step (s := .client) linking (setEp_peer w .client ((w.ep .client).modifyPending circ
        fun l => { l with linkSentUsec := now })) ?_ fun t c cell mem => ?_
      · rw [show Side.exit = Side.client.peer from rfl, push_setEp_self]
        exact blank.modifyPending (f := fun l => { l with linkSentUsec := now }) blank.unlinked
      · refine (mem_push mem).imp id fun new => ?_
        rw [List.mem_singleton.mp new]
        exact zero

theorem untouched_canSend {s : Side} (h : w.Untouched) (action : step p w (.canSend s) = some w') :
    w'.Untouched := by
  have linking := linking_canSend h.linking action
  simp only [step] at action
  split at action
  · cases action
  · obtain rfl := Option.some.inj action
    have blank := h.blank s
    have settled := (decideNextCirc_spec p (w.ep s).net (w.ep s).cfx).1
    obtain ⟨oooQ, delivered⟩ := settled.record
    exact h.idle linking
      { blank with
        oooQ := oooQ.trans blank.oooQ
        delivered := delivered.trans blank.delivered
        legs := fun leg mem => blank.legs leg (by rwa [settled.legs] at mem)
        closed := fun closed none => settled.legs.trans (blank.closed closed none) }

theorem untouched_tune {s : Side} {state : CircState} (h : w.Untouched)
    (action : step p w (.tune s circ state) = some w') : w'.Untouched := by
  have linking := linking_tune h.linking action
  obtain rfl := Option.some.inj action
  exact h.idle linking { h.blank s with }

theorem untouched_updateRtt {s : Side} {rtt : Nat} (h : w.Untouched)
    (action : step p w (.updateRtt s circ rtt) = some w') : w'.Untouched := by
  have linking := linking_updateRtt h.linking action
  simp only [step] at action
  split at action
  · cases action
  · obtain rfl := Option.some.inj action
    exact h.idle linking ((h.blank s).modifyLeg (fun _ => rfl) fun _ => rfl)

theorem step_untouched {e : Event} (h : w.Untouched) (handshake : e.isHandshake = true)
    (action : step p w e = some w') : w'.Untouched := by
  cases e with
  | send | close => cases handshake
  | canSend => exact untouched_canSend h action
  | tune => exact untouched_tune h action
  | updateRtt => exact untouched_updateRtt h action
  | recv => exact untouched_recv h handshake action
  | launch => exact untouched_launch h action
  | opened => exact untouched_opened h action

theorem Untouched.linkedStart (h : w.Untouched) (joined : w.Joined) : w.LinkedStart := by
  have sent (s : Side) (c : CircId) (mem : c ∈ (w.ep s).cfx.circs) : (w.ep s).sentCtr c = 0 := by
    obtain ⟨leg, found⟩ := exists_getLeg mem
    rw [sentCtr_of_getLeg _ found, ((h.blank s).legs leg (getLeg_mem found)).1]
  have recv (s : Side) (c : CircId) (mem : c ∈ (w.ep s).cfx.circs) : (w.ep s).recvCtr c = 0 := by
    obtain ⟨leg, found⟩ := exists_getLeg mem
    rw [recvCtr_of_getLeg _ found, ((h.blank s).legs leg (getLeg_mem found)).2]
  have atStart (s : Side) (c : CircId) (mem : c ∈ (w.ep s).cfx.circs) :
      (w.ep s).sentCtr c = (w.ep s.peer).cfx.lastSeqDelivered := by
    rw [sent s c mem, (h.blank s.peer).delivered]
  exact
    { opened := joined.opened
      unlinked := joined.unlinked
      queue := fun s => (h.blank s).oooQ
      fresh := fun s => ⟨(h.blank s).sent, (h.blank s).released,
        (h.blank s).retired (joined.closes s), joined.closes s⟩
      nodup := fun s => Endpoint.circs_nodup (h.linking.used s)
      circs := joined.circs
      empty := joined.empty
      legs := fun s c mem => by rw [sent s c mem, recv s.peer c (joined.circs s c mem)]
      bound := fun s c mem => (atStart s c mem).le
      current := fun s c current =>
        have mem := h.linking.curr s c current
        ⟨mem, atStart s c mem⟩
      idle := fun s _ => atStart s }

theorem rebuilding_untouched {cl : Endpoint} (sole : cl.SoleLeg circ)
    (delivered : cl.cfx.lastSeqDelivered = 0) (queue : cl.cfx.oooQ = []) :
    (rebuilding cl circ).Untouched := by
  obtain ⟨cfx, eq, legs, current, -, oooQ, lastSeqDelivered⟩ := rebuilt_spec sole
  have client : (rebuilding cl circ).ep .client = { cl with
      cfx := cfx, sent := [], released := [], retired := [], closes := [] } := eq
  have noCirc : cfx.circs = [] := by simp [Conflux.circs, legs]
  refine ⟨?_, ?_, fun s c cell mem => by cases mem⟩
  · unfold Linking
    rw [client]
    have noLeg : ∀ leg, leg ∉ cl.unlinked := by simp [sole.unlinked]
    exact
      { clientUsed := by simp [Endpoint.used, Endpoint.pending, noCirc, sole.unlinked]
        exitUsed := List.nodup_nil
        clientCurr := fun c isCurrent => by simp [current] at isCurrent
        exitCurr := fun c isCurrent => by cases isCurrent
        exitPending := rfl
        toExitSynced := fun c known => by simp [Endpoint.Known, noCirc] at known
        toClientSynced := fun c known => by
          simp [Endpoint.Known, rebuilding, Endpoint.absent, Conflux.circs, Conflux.new] at known
        quiet := fun leg mem => absurd mem (noLeg leg)
        linkedLeg := fun leg mem => absurd mem (noLeg leg)
        linkedCell := fun leg mem => absurd mem (noLeg leg)
        linkCell := fun c l inFlight => by cases inFlight
        unanswered := fun leg mem => absurd mem (noLeg leg)
        unopened := fun leg mem => absurd mem (noLeg leg) }
  · refine Side.forall_of .client ?_ ?_
    · rw [client]
      exact
        { sent := rfl
          released := rfl
          oooQ := oooQ.trans queue
          delivered := lastSeqDelivered.trans delivered
          legs := fun leg mem => by simp [legs] at mem
          unlinked := fun leg mem => by simp [sole.unlinked] at mem
          retired := fun _ => rfl
          closed := fun _ _ => legs }
    · exact
        { sent := rfl
          released := rfl
          oooQ := rfl
          delivered := rfl
          legs := fun leg mem => by cases mem
          unlinked := fun leg mem => by cases mem
          retired := fun _ => rfl
          closed := fun _ _ => rfl }

theorem resumes_of_zero {cl : Endpoint} (sole : cl.SoleLeg circ)
    (delivered : cl.cfx.lastSeqDelivered = 0) (queue : cl.cfx.oooQ = []) :
    Resumes p (rebuilding cl circ) := by
  intro joined w handshake isJoined traffic
  have untouched : joined.Untouched := handshake.invariant (rebuilding_untouched sole delivered queue)
    fun _ _ _ h ok action => step_untouched h ok action
  exact ((untouched.linkedStart isJoined).run_exchange traffic).inOrder .client

end World

/-! ## Sending on the only leg -/

section Sole
variable {p : Params} {net : CircId → CircState} {cfx : Conflux} {leg : ConfluxLeg}
  (sole : cfx.legs = [leg]) (alive : cfx.inFullTeardown = false)
  (current : ∀ c, cfx.currLeg = some c → c = leg.circ)
include sole alive current

theorem withCurrLeg_sole : ∃ base, withCurrLeg cfx = some base ∧ base.currLeg = some leg.circ := by
  unfold withCurrLeg
  rw [alive]
  cases curr : cfx.currLeg with
  | some c => exact ⟨cfx, rfl, by rw [curr, current c curr]⟩
  | none =>
      have first : firstLeg cfx.legs = some leg := by
        rw [sole]
        simp only [firstLeg, closerLeg, List.foldl_cons, List.foldl_nil, List.head?_cons]
        split <;> rfl
      exact ⟨{ cfx with cellsUntilSwitch := 0, currLeg := some leg.circ },
        by simp [pickFirstLeg, first], rfl⟩

variable (p net) in
theorem decideCircForSend_sole (command : RelayCommand) (multiplexed : command.shouldMultiplex = true)
    (notData : command ≠ .data) (origCirc : CircId) :
    ∃ base, Settled cfx base ∧ base.currLeg = some leg.circ ∧
      decideCircForSend p net cfx origCirc command = (base, .on leg.circ) := by
  obtain ⟨base, eq, isCurrent⟩ := withCurrLeg_sole sole alive current
  have settled := (withCurrLeg_settled eq).1
  have found : base.getLeg leg.circ = some leg := by simp [Conflux.getLeg, settled.legs, sole]
  have choice (c : CircId) (mem : c ∈ base.circs) : c = leg.circ := by
    rw [settled.circs, Conflux.circs, sole] at mem
    exact List.mem_singleton.mp mem
  refine ⟨base, settled, isCurrent, ?_⟩
  have next : decideNextCirc p net cfx = (base, none) ∨
      decideNextCirc p net cfx = (base, some leg.circ) := by
    simp only [decideNextCirc, eq]
    split
    · cases chosen : decideByAlg net base with
      | none => exact .inl rfl
      | some c => exact .inr (by rw [choice c (decideByAlg_mem chosen)])
    · rw [isCurrent, Option.filter_some]
      split
      · exact .inr rfl
      · exact .inl rfl
  rcases next with next | next
  · simp [decideCircForSend, multiplexed, next, notData, isCurrent]
  · simp [decideCircForSend, multiplexed, next, isCurrent, found]

end Sole

namespace World
variable {p : Params} {w : World} {circ : CircId}

/-- An exit that holds one leg and has sent `n` messages over it. -/
structure ExitSent (ex : Endpoint) (circ : CircId) (n : Nat) : Prop where
  opened : ex.closed = false
  alive : ex.cfx.inFullTeardown = false
  leg : ∃ leg, ex.cfx.legs = [leg] ∧ leg.circ = circ
  current : ∀ c, ex.cfx.currLeg = some c → c = circ
  sent : ex.sent.length = n

/-- A client that holds one leg and has received `n` messages over it. -/
structure ClientGot (cl : Endpoint) (circ : CircId) (n : Nat) : Prop where
  opened : cl.closed = false
  leg : ∃ leg, cl.cfx.legs = [leg] ∧ leg.circ = circ ∧ leg.lastSeqRecv = n

theorem exit_sends {n : Nat} (ex : ExitSent (w.ep .exit) circ n) (cl : ClientGot (w.ep .client) circ n)
    (empty : w.chan .client circ = []) :
    ∃ w', (machine p).Reach (fun _ e => e.isTraffic = true) w w' ∧
      ExitSent (w'.ep .exit) circ (n + 1) ∧
      w'.ep .client = recvRelay p .client false none (w.ep .client) circ endMsg ∧
      w'.chan .client circ = [] := by
  obtain ⟨leg, sole, rfl⟩ := ex.leg
  obtain ⟨base, settled, current, decided⟩ := decideCircForSend_sole p (w.ep .exit).net
    sole ex.alive ex.current .end_ rfl (by decide) leg.circ
  have found : base.getLeg leg.circ = some leg := by simp [Conflux.getLeg, settled.legs, sole]
  have isLeg : leg.circ ∈ (w.ep .exit).cfx.circs := by simp [Conflux.circs, sole]
  have hears : leg.circ ∈ (w.ep .client).cfx.circs := by
    obtain ⟨clLeg, eq, isCirc, -⟩ := cl.leg
    simp [Conflux.circs, eq, isCirc]
  let ep : Endpoint := sendMsg.packaged (w.ep .exit) endMsg base leg.circ
  have sends : sendMsg p (w.ep .exit) leg.circ endMsg = (ep, leg.circ, [.relay endMsg]) := by
    simp only [sendMsg, show endMsg.command = .end_ from rfl, decided]
    rfl
  let mid := (w.setEp .exit ep).push .client leg.circ [.relay endMsg]
  have sent : step p w (.send .exit leg.circ endMsg) = some mid := by
    simp only [step, ex.opened, isLeg, not_true, decide_false, Bool.false_or,
      show endMsg.command.isConflux = false from rfl, Bool.false_eq_true, if_false, sends]
    rfl
  have arriving : mid.chan .client leg.circ = [.relay endMsg] := by
    simp [mid, push, setEp, empty]
  have same : mid.ep .client = w.ep .client := rfl
  let last := mid.handled .client leg.circ
    (recvRelay p .client false none (w.ep .client) leg.circ endMsg, [])
  have received : step p mid (.recv .client leg.circ 1 false none) = some last := by
    simp only [step, arriving, same, Endpoint.hears, cl.opened, hears]
    rfl
  have before : (machine p).Reach (fun _ e => e.isTraffic = true) w mid :=
    .next (e := .send .exit leg.circ endMsg) .refl rfl sent
  have counted : ep.cfx = { base.modifyLeg leg.circ fun l => { l with lastSeqSent := l.lastSeqSent + 1 } with
      cellsUntilSwitch := base.cellsUntilSwitch - 1 } := by
    simp only [ep, sendMsg.packaged, noteCellSent, found]
    rfl
  refine ⟨last, .next (e := .recv .client leg.circ 1 false none) before rfl received, ?_,
    handled_ep _ _ _, ?_⟩
  · have exit : last.ep .exit = ep := rfl
    rw [exit]
    exact
      { opened := ex.opened
        alive := by
          rw [counted]
          rcases settled with rfl | ⟨_, _, _, rfl⟩ <;> exact ex.alive
        leg := ⟨{ leg with lastSeqSent := leg.lastSeqSent + 1 },
          by simp [counted, Conflux.modifyLeg, settled.legs, sole], rfl⟩
        current := fun c isCurrent => by
          rw [counted] at isCurrent
          exact Option.some.inj (isCurrent.symm.trans current)
        sent := by
          rw [← ex.sent]
          exact List.length_append }
  · simp [last, handled_nil, pop, setEp, arriving]

section Got
variable {cl : Endpoint} {n : Nat} (got : ClientGot cl circ n)
include got

theorem ClientGot.lastSeqRecv {leg : ConfluxLeg} (found : cl.cfx.getLeg circ = some leg) :
    leg.lastSeqRecv = n := by
  obtain ⟨only, sole, -, recv⟩ := got.leg
  have mem := getLeg_mem found
  rw [sole, List.mem_singleton] at mem
  rw [mem, recv]

theorem ClientGot.mem : circ ∈ cl.cfx.circs := by
  obtain ⟨leg, sole, isCirc, -⟩ := got.leg
  simp [Conflux.circs, sole, isCirc]

theorem ClientGot.refuses (late : n < cl.cfx.lastSeqDelivered) :
    (circ, CloseReason.seqNotNew) ∈ (recvRelay p .client false none cl circ endMsg).closes := by
  have effect := recvRelay_effect p .client false none cl circ endMsg
  generalize recvRelay p .client false none cl circ endMsg = cl' at effect
  cases effect with
  | bypass outside => exact outside.elim (absurd got.mem) fun plain => by cases plain
  | inOrder _ found next => exact absurd next (by rw [got.lastSeqRecv found]; omega)
  | queued _ found early => exact absurd early (by rw [got.lastSeqRecv found]; omega)
  | full _ found early => exact absurd early (by rw [got.lastSeqRecv found]; omega)
  | stale _ found =>
      rw [closeCirc_closes _ _ _ (.inl ?_)]
      · exact List.mem_cons_self
      · rw [(received_shape cl circ _).circs]
        exact got.mem

theorem ClientGot.releases (next : cl.cfx.lastSeqDelivered = n) :
    ∃ msgs cfx, recvRelay p .client false none cl circ endMsg =
        { cl with cfx := cfx, released := cl.released ++ endMsg :: msgs } ∧
      cfx.lastSeqDelivered = n + 1 + msgs.length ∧ dequeueRelayMsg p cfx = none ∧
      cl.cfx.queued = ↑(msgs.zipIdx (n + 2)) + cfx.queued ∧
      (cl.cfx.QueueOrdered → cfx.QueueOrdered) ∧
      ∃ leg, cfx.legs = [leg] ∧ leg.circ = circ ∧ leg.lastSeqRecv = n + 1 := by
  have effect := recvRelay_effect p .client false none cl circ endMsg
  generalize recvRelay p .client false none cl circ endMsg = cl' at effect
  cases effect with
  | bypass outside => exact outside.elim (absurd got.mem) fun plain => by cases plain
  | @inOrder leg cfx q cost msgs _ found _ eq contents ordered stuck =>
      obtain ⟨only, sole, rfl, recv⟩ := got.leg
      refine ⟨msgs, cfx, rfl, by rw [eq, next], stuck rfl, ?_, ?_, ?_⟩
      · rw [contents, next, eq]
        rfl
      · rw [eq]
        exact ordered
      · refine ⟨{ only with lastSeqRecv := n + 1 }, ?_, rfl, rfl⟩
        rw [eq]
        simp [Endpoint.received, Conflux.modifyLeg, sole, got.lastSeqRecv found]
  | queued _ found early => exact absurd early (by rw [got.lastSeqRecv found]; omega)
  | full _ found early => exact absurd early (by rw [got.lastSeqRecv found]; omega)
  | stale _ found old => exact absurd old (by rw [got.lastSeqRecv found]; omega)

end Got

/-- Over one leg, `n` messages of the exit were delivered and the queue holds only later numbers. -/
structure Replaying (w : World) (circ : CircId) (n : Nat) : Prop where
  sent : ExitSent (w.ep .exit) circ n
  got : ClientGot (w.ep .client) circ n
  empty : w.chan .client circ = []
  next : (w.ep .client).cfx.lastSeqDelivered = n
  released : (w.ep .client).released.length = n
  ordered : (w.ep .client).cfx.QueueOrdered
  waiting : ∀ q ∈ (w.ep .client).cfx.queued, n + 1 < q.2

theorem Replaying.step {n : Nat} (h : w.Replaying circ n) :
    ∃ w', (machine p).Reach (fun _ e => e.isTraffic = true) w w' ∧
      (w'.InOrder .client → w'.Replaying circ (n + 1) ∧
        (w'.ep .client).cfx.queued = (w.ep .client).cfx.queued) := by
  obtain ⟨w', reach, sent, client, empty⟩ := exit_sends (p := p) h.sent h.got h.empty
  obtain ⟨msgs, cfx, eq, delivered, stuck, contents, ordered, leg⟩ := h.got.releases (p := p) h.next
  rw [eq] at client
  refine ⟨w', reach, fun inOrder => ?_⟩
  have le := inOrder.1.length_le
  rw [client, show Side.client.peer = .exit from rfl, sent.sent] at le
  simp only [List.length_append, List.length_cons, h.released] at le
  obtain rfl : msgs = [] := List.eq_nil_of_length_eq_zero (by omega)
  have same : (w.ep .client).cfx.queued = cfx.queued := by simpa using contents
  replace delivered : cfx.lastSeqDelivered = n + 1 := delivered
  have waiting : ∀ q ∈ cfx.queued, n + 1 < q.2 := same ▸ h.waiting
  rw [client]
  refine ⟨?_, same.symm⟩
  constructor
  · exact sent
  · rw [client]
    exact ⟨h.got.opened, leg⟩
  · exact empty
  · rw [client]
    exact delivered
  · rw [client]
    simp [h.released]
  · rw [client]
    exact ordered h.ordered
  · rw [client]
    intro q mem
    have above := waiting q mem
    have missing := next_notMem_of_dequeue_none stuck (ordered h.ordered) (fun q mem => by
      rw [delivered]
      exact waiting q mem) q.1
    rw [delivered] at missing
    have differs : q.2 ≠ n + 2 := fun same => missing (by rw [← same]; exact mem)
    omega

theorem Replaying.released_ahead {gap n : Nat} {m : RelayMsg} (h : w.Replaying circ n)
    (left : (m, n + 2 + gap) ∈ (w.ep .client).cfx.queued) :
    ∃ w', (machine p).Reach (fun _ e => e.isTraffic = true) w w' ∧ ¬ w'.InOrder .client := by
  -- each message of the exit brings the queued one closer by one number
  induction gap generalizing w n with
  | zero =>
      obtain ⟨w', reach, more⟩ := h.step (p := p)
      refine ⟨w', reach, fun inOrder => ?_⟩
      obtain ⟨replaying, same⟩ := more inOrder
      have := replaying.waiting _ (same ▸ left)
      omega
  | succ gap ih =>
      obtain ⟨w', reach, more⟩ := h.step (p := p)
      by_cases inOrder : w'.InOrder .client
      · obtain ⟨replaying, same⟩ := more inOrder
        rw [← same, show n + 2 + (gap + 1) = n + 1 + 2 + gap by omega] at left
        obtain ⟨last, onward, broken⟩ := ih replaying left
        exact ⟨last, reach.trans onward, broken⟩
      · exact ⟨w', reach, inOrder⟩

structure Relinked (w : World) (circ : CircId) (cl : Endpoint) : Prop where
  joined : w.Joined
  sent : ExitSent (w.ep .exit) circ 0
  got : ClientGot (w.ep .client) circ 0
  released : (w.ep .client).released = []
  delivered : (w.ep .client).cfx.lastSeqDelivered = cl.cfx.lastSeqDelivered
  oooQ : (w.ep .client).cfx.oooQ = cl.cfx.oooQ

theorem Relinked.zero_of_inOrder {cl : Endpoint} (h : w.Relinked circ cl)
    (queue : cl.cfx.QueueSound)
    (inOrder : ∀ w', (machine p).Reach (fun _ e => e.isTraffic = true) w w' → w'.InOrder .client) :
    cl.cfx.lastSeqDelivered = 0 ∧ cl.cfx.oooQ = [] := by
  have zero : cl.cfx.lastSeqDelivered = 0 := by
    by_contra nonzero
    obtain ⟨w', reach, -, client, -⟩ := exit_sends (p := p) h.sent h.got (h.joined.empty _ _)
    have refused := h.got.refuses (p := p) (by rw [h.delivered]; omega)
    rw [← client] at refused
    exact absurd ((inOrder w' reach).2.2 _ refused) (by simp)
  refine ⟨zero, List.eq_nil_iff_forall_not_mem.mpr fun m mem => ?_⟩
  have replaying : w.Replaying circ 0 :=
    { sent := h.sent
      got := h.got
      empty := h.joined.empty _ _
      next := h.delivered.trans zero
      released := by rw [h.released]; rfl
      ordered := by
        unfold Conflux.QueueOrdered
        rw [h.oooQ]
        exact queue.ordered
      waiting := fun q queued => by
        rw [Conflux.queued, h.oooQ] at queued
        obtain ⟨m, mem, rfl⟩ := List.mem_map.mp queued
        exact queue.early m mem }
  have left : (m.msg, 0 + 2 + (m.seq - 2)) ∈ (w.ep .client).cfx.queued := by
    have above := queue.early m mem
    rw [show 0 + 2 + (m.seq - 2) = m.seq by omega, Conflux.queued, h.oooQ]
    exact List.mem_map.mpr ⟨m, mem, rfl⟩
  obtain ⟨w', reach, broken⟩ := replaying.released_ahead (p := p) left
  exact broken (inOrder w' reach)

def wired (circ : CircId) (cl ex : Endpoint) (toClient toExit : List Cell) : World where
  ep
    | .client => cl
    | .exit => ex
  chan
    | .client, c => if c = circ then toClient else []
    | .exit, c => if c = circ then toExit else []

section Wired
variable {cl ex : Endpoint} {toClient toExit : List Cell}

theorem wired_setEp_client (cl' : Endpoint) :
    (wired circ cl ex toClient toExit).setEp .client cl' = wired circ cl' ex toClient toExit := by
  simp only [setEp, wired, World.mk.injEq, and_true]
  funext s
  cases s <;> rfl

theorem wired_setEp_exit (ex' : Endpoint) :
    (wired circ cl ex toClient toExit).setEp .exit ex' = wired circ cl ex' toClient toExit := by
  simp only [setEp, wired, World.mk.injEq, and_true]
  funext s
  cases s <;> rfl

theorem wired_push_client (cells : List Cell) :
    (wired circ cl ex toClient toExit).push .client circ cells =
      wired circ cl ex (toClient ++ cells) toExit := by
  simp only [push, wired, World.mk.injEq, true_and]
  funext s c
  cases s
  · by_cases same : c = circ <;> simp [same]
  · rfl

theorem wired_push_exit (cells : List Cell) :
    (wired circ cl ex toClient toExit).push .exit circ cells =
      wired circ cl ex toClient (toExit ++ cells) := by
  simp only [push, wired, World.mk.injEq, true_and]
  funext s c
  cases s
  · rfl
  · by_cases same : c = circ <;> simp [same]

theorem wired_pop_client :
    (wired circ cl ex toClient toExit).pop .client circ = wired circ cl ex toClient.tail toExit := by
  simp only [pop, wired, World.mk.injEq, true_and]
  funext s c
  cases s
  · by_cases same : c = circ <;> simp [same]
  · rfl

theorem wired_pop_exit :
    (wired circ cl ex toClient toExit).pop .exit circ = wired circ cl ex toClient toExit.tail := by
  simp only [pop, wired, World.mk.injEq, true_and]
  funext s c
  cases s
  · rfl
  · by_cases same : c = circ <;> simp [same]

theorem wired_launch {cl' : Endpoint} (opened : cl.closed = false) (newClient : circ ∉ cl.used)
    (newExit : circ ∉ ex.used) (launched : launchLeg p cl circ = some cl') :
    step p (wired circ cl ex [] []) (.launch circ) = some (wired circ cl' ex [] []) := by
  have unused : (wired circ cl ex [] []).unused circ = true := by
    simp [World.unused, wired, newClient, newExit]
  have client : (wired circ cl ex [] []).ep .client = cl := rfl
  simp only [step, client, opened, unused, launched, Bool.not_true, Bool.or_false, Bool.false_eq_true,
    if_false, Option.map_some, wired_setEp_client]

variable (ex toClient toExit) in
theorem wired_opened {leg : PendingLeg} (now : Nat) (opened : cl.closed = false)
    (found : cl.getPending circ = some leg) (unsent : leg.linkSentUsec = 0) (running : now ≠ 0) :
    step p (wired circ cl ex toClient toExit) (.opened circ now) =
      some (wired circ (cl.modifyPending circ fun l => { l with linkSentUsec := now }) ex toClient
        (toExit ++ [.link leg.link])) := by
  have client : (wired circ cl ex toClient toExit).ep .client = cl := rfl
  simp only [step, client, found]
  rw [if_neg (by simp [opened, unsent, running]), wired_setEp_client, wired_push_exit]
  rfl

variable (ex toClient toExit) in
theorem wired_recv_client (cell : Cell) {now : Nat} {cl' : Endpoint} {answer : List Cell}
    (hears : cl.hears .client circ = true)
    (received : recvCell p .client false now none cl circ cell = (cl', answer)) :
    step p (wired circ cl ex (cell :: toClient) toExit) (.recv .client circ now false none) =
      some (wired circ cl' ex toClient (toExit ++ answer)) := by
  have head : (wired circ cl ex (cell :: toClient) toExit).chan .client circ = cell :: toClient := by
    simp [wired]
  have client : (wired circ cl ex (cell :: toClient) toExit).ep .client = cl := rfl
  simp only [step, head, client, hears, received]
  rw [wired_pop_client, wired_setEp_client]
  exact congrArg some (wired_push_exit answer)

variable (cl toClient toExit) in
theorem wired_recv_exit (cell : Cell) {now : Nat} {ex' : Endpoint} {answer : List Cell}
    (hears : ex.hears .exit circ = true)
    (received : recvCell p .exit false now none ex circ cell = (ex', answer)) :
    step p (wired circ cl ex toClient (cell :: toExit)) (.recv .exit circ now false none) =
      some (wired circ cl ex' (toClient ++ answer) toExit) := by
  have head : (wired circ cl ex toClient (cell :: toExit)).chan .exit circ = cell :: toExit := by
    simp [wired]
  have exit : (wired circ cl ex toClient (cell :: toExit)).ep .exit = ex := rfl
  simp only [step, head, exit, hears, received]
  rw [wired_pop_exit, wired_setEp_exit]
  exact congrArg some (wired_push_client answer)

end Wired

theorem tryFinalizeSet_first (cfx : Conflux) (leg : PendingLeg) (room : 1 ≤ p.maxLegsSet)
    (legs : cfx.legs = []) (linked : leg.linked = true)
    (valid : leg.link.lastSeqnoSent ≤ cfx.lastSeqDelivered) :
    tryFinalizeSet p cfx [leg] = .linked { cfx with
      alg := chooseAlgorithm leg.link.desiredUx, legs := [leg.toLeg], numLegLaunch := 0 } := by
  have fits : ¬ p.maxLegsSet < 1 := by omega
  have order : drained [leg] = [leg] := rfl
  simp [tryFinalizeSet, legs, linked, valid, fits, validateUnlinkedLegs, addLegs, order, cfxAddLeg]

section Handshake
variable (p) (new : CircId) (cl : Endpoint)

def rebuildLink : LinkCell := newLink cl.cfx.nonce 0 cl.cfx.lastSeqDelivered p.clientUx

def freshAnswer : LinkCell := newLink cl.cfx.nonce 0 0 .minLatency

/-- The client with one leg under construction, whose LINK was sent at `now`. -/
def launching (now : Nat) : Endpoint :=
  { cl with
    cfx := { cl.cfx with numLegLaunch := cl.cfx.numLegLaunch + 1 }
    unlinked := [{ legNew new (rebuildLink p cl) with linkSentUsec := now }] }

def answering : Endpoint :=
  { Endpoint.absent.fresh cl.cfx.nonce with
    cfx := { Conflux.new cl.cfx.nonce with
      alg := chooseAlgorithm p.clientUx, legs := [(linkLeg new 1 (rebuildLink p cl)).toLeg] } }

def relinked : Endpoint :=
  { cl with
    cfx := { cl.cfx with
      alg := .minrtt
      legs := [PendingLeg.toLeg { legNew new (freshAnswer cl) with linkSentUsec := 1, linked := true }]
      numLegLaunch := 0 }
    unlinked := [] }

variable {p new cl}

theorem launchLeg_launching (legs : cl.cfx.legs = []) (unlinked : cl.unlinked = [])
    (budget : cl.cfx.numLegLaunch < p.numLegsSet + p.maxUnlinkedLegRetry) :
    launchLeg p cl new = some (launching p new cl 0) := by
  have maxSent : cl.cfx.getMaxSeqSent = 0 := by simp [Conflux.getMaxSeqSent, legs]
  rw [launchLeg, if_neg (Nat.not_le.mpr budget)]
  simp only [maxSent, unlinked]
  rfl

theorem opened_launching (now : Nat) :
    (launching p new cl 0).modifyPending new (fun l => { l with linkSentUsec := now }) =
      launching p new cl now := by
  simp [Endpoint.modifyPending, launching, legNew]

theorem processLink_answering (room : 1 ≤ p.maxLegsSet) :
    processLink p .exit false 1 .absent new (rebuildLink p cl) =
      (answering p new cl, [.linked (freshAnswer cl)]) := by
  have finalized := tryFinalizeSet_first (p := p) (.new cl.cfx.nonce)
    (linkLeg new 1 (rebuildLink p cl)) room rfl rfl le_rfl
  have created : Endpoint.absent.getOrCreate (rebuildLink p cl).nonce =
      Endpoint.absent.fresh cl.cfx.nonce := rfl
  simp only [processLink, reduceCtorEq, if_false, created]
  rw [if_neg (by simp [Endpoint.getPending, Conflux.getLeg, Endpoint.absent, Conflux.new])]
  rw [show (Endpoint.absent.fresh cl.cfx.nonce).unlinked ++
    [{ legNew new (rebuildLink p cl) with linkSentUsec := 1, linked := true }] =
      [linkLeg new 1 (rebuildLink p cl)] from rfl,
    show (Endpoint.absent.fresh cl.cfx.nonce).cfx = .new cl.cfx.nonce from rfl, finalized]
  rfl

theorem processLinked_relinked (room : 1 ≤ p.maxLegsSet) (timely : 0 < p.buildTimeoutUsec)
    (legs : cl.cfx.legs = []) :
    processLinked p .client false 1 (launching p new cl 1) new (freshAnswer cl) =
      (relinked new cl, [.linkedAck]) := by
  have finalized := tryFinalizeSet_first (p := p) (launching p new cl 1).cfx
    { legNew new (freshAnswer cl) with linkSentUsec := 1, linked := true } room legs rfl
    (Nat.zero_le _)
  have found : (launching p new cl 1).getPending new =
      some { legNew new (rebuildLink p cl) with linkSentUsec := 1 } := by
    simp [Endpoint.getPending, launching, legNew]
  have recorded : recordRttClient p 1
      { legNew new (freshAnswer cl) with linkSentUsec := 1 } =
        some { legNew new (freshAnswer cl) with linkSentUsec := 1, linked := true } := by
    have inTime : ¬ p.buildTimeoutUsec ≤ 0 := by omega
    simp [recordRttClient, inTime, legNew]
  have replaced : ((launching p new cl 1).unlinked.map fun l =>
      if l.circ = new then { legNew new (freshAnswer cl) with linkSentUsec := 1, linked := true } else l) =
        [{ legNew new (freshAnswer cl) with linkSentUsec := 1, linked := true }] := by
    simp [launching, legNew]
  simp only [processLinked, reduceCtorEq, if_false, found]
  rw [if_neg (by simp [freshAnswer, rebuildLink, legNew, newLink]),
    show ({ ({ legNew new (rebuildLink p cl) with linkSentUsec := 1 } : PendingLeg) with
      link := freshAnswer cl } : PendingLeg) = { legNew new (freshAnswer cl) with linkSentUsec := 1 } from rfl,
    recorded]
  dsimp only
  rw [replaced, finalized]
  rfl

theorem handshake_completes (opened : cl.closed = false) (legs : cl.cfx.legs = [])
    (unlinked : cl.unlinked = []) (retired : cl.retired = []) (room : 1 ≤ p.maxLegsSet)
    (timely : 0 < p.buildTimeoutUsec)
    (budget : cl.cfx.numLegLaunch < p.numLegsSet + p.maxUnlinkedLegRetry) :
    (machine p).Reach (fun _ e => e.isHandshake = true) (wired new cl .absent [] [])
      (wired new (relinked new cl) (processLinkedAck .exit false 1 (answering p new cl) new) [] []) := by
  have unusedClient : new ∉ cl.used := by
    simp [Endpoint.used, Endpoint.pending, Conflux.circs, legs, unlinked, retired]
  have unusedExit : new ∉ Endpoint.absent.used := by
    simp [Endpoint.used, Endpoint.pending, Conflux.circs, Endpoint.absent, Conflux.new]
  have found : (launching p new cl 0).getPending new = some (legNew new (rebuildLink p cl)) := by
    simp [Endpoint.getPending, launching, legNew]
  have launched := wired_launch (p := p) opened unusedClient unusedExit
    (launchLeg_launching legs unlinked budget)
  have sent := wired_opened (p := p) .absent [] [] 1 (show (launching p new cl 0).closed = false from opened)
    found rfl (by decide)
  rw [opened_launching] at sent
  have linked := wired_recv_exit (p := p) (launching p new cl 1) [] [] (.link (rebuildLink p cl))
    (show Endpoint.absent.hears .exit new = true by
      simp [Endpoint.hears, unusedExit, show Endpoint.absent.closed = true from rfl])
    (processLink_answering room)
  have answered := wired_recv_client (p := p) (answering p new cl) [] [] (.linked (freshAnswer cl))
    (show (launching p new cl 1).hears .client new = true by
      simp [Endpoint.hears, launching, Endpoint.pending, legNew, opened])
    (processLinked_relinked room timely legs)
  have acked := wired_recv_exit (p := p) (relinked new cl) [] [] .linkedAck
    (show (answering p new cl).hears .exit new = true by
      simp [Endpoint.hears, answering, Conflux.circs, PendingLeg.toLeg, linkLeg, legNew, Endpoint.fresh])
    (show recvCell p .exit false 1 none _ _ .linkedAck = _ from rfl)
  refine .next (e := .recv .exit new 1 false none) ?_ rfl acked
  refine .next (e := .recv .client new 1 false none) ?_ rfl answered
  refine .next (e := .recv .exit new 1 false none) ?_ rfl linked
  refine .next (e := .opened new 1) ?_ rfl sent
  exact .next (e := .launch new) .refl rfl launched

end Handshake

theorem relinks {cl : Endpoint} (sole : cl.SoleLeg circ) (room : 1 ≤ p.maxLegsSet)
    (timely : 0 < p.buildTimeoutUsec)
    (budget : (cl.rebuilt circ).cfx.numLegLaunch < p.numLegsSet + p.maxUnlinkedLegRetry) :
    ∃ w, (machine p).Reach (fun _ e => e.isHandshake = true) (rebuilding cl circ) w ∧
      w.Relinked (circ + 1) cl := by
  obtain ⟨cfx, eq, legs, current, -, oooQ, delivered⟩ := rebuilt_spec sole
  have start : rebuilding cl circ = wired (circ + 1) (cl.rebuilt circ) .absent [] [] := by
    simp only [rebuilding, wired, World.mk.injEq, ite_self, true_and]
    funext s c
    cases s <;> rfl
  rw [start]
  rw [eq] at budget ⊢
  refine ⟨_, handshake_completes sole.opened legs sole.unlinked rfl room timely budget, ?_⟩
  generalize base : ({ cl with
    cfx := cfx, sent := [], released := [], retired := [], closes := [] } : Endpoint) = cl0
  have acked : processLinkedAck .exit false 1 (answering p (circ + 1) cl0) (circ + 1) =
      { answering p (circ + 1) cl0 with
        cfx := (answering p (circ + 1) cl0).cfx.modifyLeg (circ + 1) (recordRttExit 1) } := by
    simp [processLinkedAck, answering, Conflux.getLeg, PendingLeg.toLeg, linkLeg, legNew]
  have clientCircs : (relinked (circ + 1) cl0).cfx.circs = [circ + 1] := rfl
  have exitCircs : ((answering p (circ + 1) cl0).cfx.modifyLeg (circ + 1) (recordRttExit 1)).circs =
      [circ + 1] := circs_modifyLeg fun _ => by rfl
  rw [acked]
  subst base
  exact
    { joined :=
        { opened := Side.forall_of .client sole.opened rfl
          unlinked := Side.forall_of .client rfl rfl
          circs := Side.forall_of .client
            (fun c mem => exitCircs ▸ (clientCircs ▸ mem))
            (fun c mem => clientCircs ▸ (exitCircs ▸ mem))
          empty := fun s c => by cases s <;> simp [wired]
          closes := Side.forall_of .client rfl rfl }
      sent :=
        { opened := rfl
          alive := rfl
          leg := ⟨_, rfl, by simp [PendingLeg.toLeg, linkLeg, legNew, recordRttExit]⟩
          current := fun c isCurrent => by cases isCurrent
          sent := rfl }
      got := ⟨sole.opened, _, rfl, rfl, rfl⟩
      released := rfl
      delivered := delivered
      oooQ := oooQ }

def deliveredOne : Endpoint :=
  recvRelay .consensus .client false none ((linkedAnew 7 [1]).ep .client) 1 dataMsg

theorem soleLeg_of_queue {ep : Endpoint} (queue : ep.cfx.oooQ = []) (opened : ep.closed = false)
    (alive : ep.cfx.inFullTeardown = false) (circs : ep.cfx.circs = [circ])
    (current : ep.cfx.currLeg = none) (unlinked : ep.unlinked = []) : ep.SoleLeg circ where
  opened := opened
  alive := alive
  circs := circs
  current c isCurrent := by simp [current] at isCurrent
  unlinked := unlinked
  queue := ⟨by rw [Conflux.QueueOrdered, queue]; exact HeapOrder.ordered_nil, fun m mem => by simp [queue] at mem⟩

end World
end TorJet
