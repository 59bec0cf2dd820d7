import TorJet.Conflux.Effects

/-!
# One direction of a set as a flow over lanes

`flow` reads the abstract resequencing protocol off the two endpoints and the channel between them.
Every operation of an endpoint is shown here to be one of the operations of that protocol, in the
direction it sends in and in the direction it receives in.
-/

namespace TorJet
open Smartlist Base

def Endpoint.listening (ep : Endpoint) : Finset CircId :=
  if ep.closed then ∅ else (ep.cfx.circs ++ ep.pending).toFinset

theorem Endpoint.mem_listening {ep : Endpoint} {c : CircId} : c ∈ ep.listening ↔ ep.Listens c := by
  unfold listening Listens
  cases ep.closed <;> simp

def tokens (chan : CircId → List Cell) (circ : CircId) : List (Token RelayMsg) :=
  (chan circ).map Cell.token

/-- What `snd` sends to `rcv`, numbered from `first + 1`. -/
def flow (first : Nat) (snd rcv : Endpoint) (chan : CircId → List Cell) : Flow CircId RelayMsg where
  first := first
  sent := snd.sent
  released := rcv.released
  senders := snd.cfx.circs.toFinset
  ctr := snd.sentCtr
  curr := snd.cfx.currLeg
  receivers := rcv.listening
  base := rcv.recvCtr
  chan := tokens chan
  queue := rcv.cfx.queued

section Send
variable {first : Nat} {snd rcv : Endpoint} {chan : CircId → List Cell} {circ : CircId}

theorem tokens_push (chan : CircId → List Cell) (circ : CircId) (cells : List Cell) :
    tokens (Function.update chan circ (chan circ ++ cells)) =
      Function.update (tokens chan) circ (tokens chan circ ++ cells.map Cell.token) := by
  funext c
  by_cases same : c = circ
  · subst same
    simp [tokens]
  · simp [tokens, same]

theorem tokens_pop {cell : Cell} {rest : List Cell} (head : chan circ = cell :: rest) :
    tokens (Function.update chan circ rest) =
      Function.update (tokens chan) circ (tokens chan circ).tail := by
  funext c
  by_cases same : c = circ
  · subst same
    simp [tokens, head]
  · simp [tokens, same]

variable (first) in
theorem flow_synced (synced : Synced snd rcv chan) (mem : circ ∈ snd.cfx.circs)
    (listening : circ ∈ (flow first snd rcv chan).receivers) :
    (flow first snd rcv chan).Synced circ :=
  synced circ (.inl mem) (Endpoint.mem_listening.mp listening)

theorem pushed_flow (cell : Cell) (circ : CircId) (silent : ∀ r, decode r [cell.token] = [])
    (h : (flow first snd rcv chan).Coherent) :
    (flow first snd rcv (Function.update chan circ (chan circ ++ [cell]))).Coherent ∧
      ((flow first snd rcv chan).Complete →
        (flow first snd rcv (Function.update chan circ (chan circ ++ [cell]))).Complete) := by
  have pushed : flow first snd rcv (Function.update chan circ (chan circ ++ [cell])) =
      (flow first snd rcv chan).push circ cell.token := by
    simp only [flow, Flow.push, tokens_push, List.map_cons, List.map_nil]
  rw [pushed]
  exact ⟨Flow.push_silent_coherent h circ silent, fun full => Flow.push_silent_complete full circ silent⟩

theorem settled_flow {base : Conflux} (h : (flow first snd rcv chan).Coherent)
    (settled : Settled snd.cfx base) :
    (flow first { snd with cfx := base } rcv chan).Coherent ∧
      (flow first { snd with cfx := base } rcv chan).pending = (flow first snd rcv chan).pending ∧
      (flow first { snd with cfx := base } rcv chan).ahead = (flow first snd rcv chan).ahead := by
  rcases settled with rfl | ⟨unset, picked, mem, rfl⟩
  · exact ⟨h, rfl, rfl⟩
  · exact ⟨Flow.pick_coherent h (List.mem_toFinset.mpr mem) unset, rfl, rfl⟩

theorem settled_synced {base : Conflux} (synced : Synced snd rcv chan)
    (settled : Settled snd.cfx base) : Synced { snd with cfx := base } rcv chan := by
  have ctr : ({ snd with cfx := base } : Endpoint).sentCtr = snd.sentCtr :=
    sentCtr_congr settled.legs rfl
  refine synced.mono (fun c known => ⟨?_, congrFun ctr c⟩) fun _ listening => ⟨listening, rfl⟩
  simpa only [Endpoint.Known, settled.circs] using known

section SentOn
variable {base : Conflux} {leg : ConfluxLeg} {m : RelayMsg} (settled : Settled snd.cfx base)
  (found : base.getLeg leg.circ = some leg) (cells : Nat) (prevLeg : Option CircId)
include settled found

private theorem sentOn_flow (n : Nat) (chan : CircId → List Cell) :
    flow first (snd.sentOn base leg.circ n cells prevLeg m) rcv chan =
      { flow first { snd with cfx := base } rcv chan with
        sent := snd.sent ++ [m]
        ctr := Function.update { snd with cfx := base }.sentCtr leg.circ n
        curr := some leg.circ } := by
  have circs := (sentOn_shape settled n cells prevLeg m leg.circ).circs
  have ctr : ({ snd with cfx := base } : Endpoint).sentCtr = snd.sentCtr :=
    sentCtr_congr settled.legs rfl
  simp only [flow, circs, sentOn_sentCtr settled n cells prevLeg m found, settled.circs, ctr]
  rfl

theorem onCurrent_flow (multiplexed : m.command.shouldMultiplex = true)
    (current : base.currLeg = some leg.circ) :
    flow first (snd.sentOn base leg.circ (leg.lastSeqSent + 1) cells prevLeg m) rcv
        (Function.update chan leg.circ (chan leg.circ ++ [.relay m])) =
      (flow first { snd with cfx := base } rcv chan).send leg.circ m := by
  have ctr := sentCtr_of_getLeg { snd with cfx := base } found
  rw [sentOn_flow settled found]
  simp only [Flow.send, Flow.push, flow, tokens_push, List.map_cons, List.map_nil, Cell.token,
    multiplexed, if_true, current, ctr]

theorem switched_flow (multiplexed : m.command.shouldMultiplex = true) (n : Nat)
    (level : (flow first { snd with cfx := base } rcv chan).last = n) :
    flow first (snd.sentOn base leg.circ (n + 1) cells prevLeg m) rcv
        (Function.update chan leg.circ
          (chan leg.circ ++ [.switch (n - leg.lastSeqSent), .relay m])) =
      ((flow first { snd with cfx := base } rcv chan).switch leg.circ).send leg.circ m := by
  have ctr := sentCtr_of_getLeg { snd with cfx := base } found
  rw [sentOn_flow settled found, Flow.send, Flow.switch, level]
  simp only [Flow.push, flow, tokens_push, List.map_cons, List.map_nil, Cell.token, multiplexed,
    if_true, ctr, Function.update_self, Function.update_idem, List.append_assoc, List.cons_append,
    List.nil_append]

end SentOn

theorem SendEffect.flow {origCirc : CircId} {m : RelayMsg} {r : Endpoint × CircId × List Cell}
    (effect : SendEffect snd origCirc m r) (h : (flow first snd rcv chan).Coherent)
    (synced : Synced snd rcv chan) :
    let after := TorJet.flow first r.1 rcv (Function.update chan r.2.1 (chan r.2.1 ++ r.2.2))
    after.Coherent ∧
      ((m.command.shouldMultiplex = true → r.2.2 ≠ [] → rcv.Listens r.2.1) →
        (TorJet.flow first snd rcv chan).Complete → after.Complete) ∧
      (r.1.closes = snd.closes ∨ r.1.closes = (origCirc, .switchTooHigh) :: snd.closes) := by
  have unmoved : Function.update chan origCirc (chan origCirc ++ []) = chan := by
    rw [List.append_nil, Function.update_eq_self]
  cases effect with
  | bypass plain =>
      have other : (Cell.relay m).token = .other := by simp [Cell.token, plain]
      obtain ⟨coherent, complete⟩ := pushed_flow _ origCirc (fun r => by rw [other]; rfl) h
      exact ⟨coherent, fun _ => complete, .inl rfl⟩
  | held settled =>
      obtain ⟨coherent, pending, ahead⟩ := settled_flow h settled
      dsimp only
      rw [unmoved]
      refine ⟨coherent, fun _ full => ?_, .inl rfl⟩
      rw [Flow.Complete, pending, ahead]
      exact full
  | @onCurrent base leg cells prevLeg multiplexed settled current found =>
      obtain ⟨coherent, pending, ahead⟩ := settled_flow h settled
      have mem : leg.circ ∈ base.circs := mem_circs_of_getLeg found
      have lane := flow_synced first (settled_synced synced settled) mem
      dsimp only
      rw [onCurrent_flow settled found cells prevLeg multiplexed current]
      refine ⟨Flow.send_coherent coherent current lane m, fun reaches full => ?_, .inl rfl⟩
      have reach := Endpoint.mem_listening.mpr (reaches multiplexed (List.cons_ne_nil _ _))
      refine Flow.send_complete coherent ?_ current reach (lane reach) m
      rw [Flow.Complete, pending, ahead]
      exact full
  | @switched base prev leg cells prevLeg multiplexed settled current prevFound found le =>
      obtain ⟨coherent, pending, ahead⟩ := settled_flow h settled
      have mem : leg.circ ∈ base.circs := mem_circs_of_getLeg found
      have level := (coherent.current prev.circ current).2.symm
      rw [show (TorJet.flow first { snd with cfx := base } rcv chan).ctr prev.circ = prev.lastSeqSent from
        sentCtr_of_getLeg { snd with cfx := base } prevFound] at level
      have below : (TorJet.flow first { snd with cfx := base } rcv chan).ctr leg.circ ≤
          (TorJet.flow first { snd with cfx := base } rcv chan).last :=
        coherent.le_last leg.circ (List.mem_toFinset.mpr mem)
      have lane : leg.circ ∈ rcv.listening →
          ((TorJet.flow first { snd with cfx := base } rcv chan).switch leg.circ).Synced leg.circ := by
        intro listening
        exact Flow.switch_synced (flow_synced _ (settled_synced synced settled) mem listening) below
      have moved := Flow.switch_coherent coherent (List.mem_toFinset.mpr mem)
      dsimp only
      rw [switched_flow settled found cells prevLeg multiplexed prev.lastSeqSent level]
      refine ⟨Flow.send_coherent moved rfl lane m, fun reaches full => ?_, .inl rfl⟩
      have reach := Endpoint.mem_listening.mpr (reaches multiplexed (List.cons_ne_nil _ _))
      refine Flow.send_complete moved (Flow.switch_complete ?_ _) rfl reach (lane reach) m
      rw [Flow.Complete, pending, ahead]
      exact full
  | @incoherent base prev leg settled current prevFound found gt =>
      obtain ⟨coherent, -, -⟩ := settled_flow h settled
      have top := (coherent.current prev.circ current).2
      have bound := coherent.le_last leg.circ (List.mem_toFinset.mpr (mem_circs_of_getLeg found))
      rw [show (TorJet.flow first { snd with cfx := base } rcv chan).ctr prev.circ = prev.lastSeqSent from
        sentCtr_of_getLeg { snd with cfx := base } prevFound] at top
      rw [show (TorJet.flow first { snd with cfx := base } rcv chan).ctr leg.circ = leg.lastSeqSent from
        sentCtr_of_getLeg { snd with cfx := base } found] at bound
      omega
  | tooHigh =>
      dsimp only
      rw [unmoved]
      exact ⟨h, fun _ full => full, .inr rfl⟩

end Send

theorem Settled.record {cfx base : Conflux} (settled : Settled cfx base) :
    base.oooQ = cfx.oooQ ∧ base.lastSeqDelivered = cfx.lastSeqDelivered := by
  rcases settled with rfl | ⟨_, _, _, rfl⟩ <;> exact ⟨rfl, rfl⟩

theorem SendEffect.keeps {ep : Endpoint} {origCirc : CircId} {m : RelayMsg}
    {r : Endpoint × CircId × List Cell} (effect : SendEffect ep origCirc m r) :
    r.1.released = ep.released ∧ r.1.cfx.oooQ = ep.cfx.oooQ ∧
      r.1.cfx.lastSeqDelivered = ep.cfx.lastSeqDelivered := by
  cases effect with
  | bypass => exact ⟨rfl, rfl, rfl⟩
  | held settled => exact ⟨rfl, settled.record⟩
  | onCurrent _ settled => exact ⟨rfl, settled.record⟩
  | switched _ settled => exact ⟨rfl, settled.record⟩
  | incoherent => exact ⟨rfl, rfl, rfl⟩
  | tooHigh => exact ⟨rfl, rfl, rfl⟩

def Cell.IsTraffic : Cell → Prop
  | .relay _ | .switch _ => True
  | .link _ | .linked _ | .linkedAck => False

theorem SendEffect.traffic {ep : Endpoint} {origCirc : CircId} {m : RelayMsg}
    {r : Endpoint × CircId × List Cell} (effect : SendEffect ep origCirc m r) :
    ∀ cell ∈ r.2.2, cell.IsTraffic := by
  cases effect <;> simp [Cell.IsTraffic]

/-! ## Closing circuits -/

structure Endpoint.SameRecord (ep ep' : Endpoint) : Prop where
  sent : ep'.sent = ep.sent
  released : ep'.released = ep.released
  oooQ : ep'.cfx.oooQ = ep.cfx.oooQ
  lastSeqDelivered : ep'.cfx.lastSeqDelivered = ep.cfx.lastSeqDelivered

theorem cfxDelLeg_record (cc : CongestionControl) (cfx : Conflux) (circ : CircId) :
    (cfxDelLeg cc cfx circ).1.oooQ = cfx.oooQ ∧
      (cfxDelLeg cc cfx circ).1.lastSeqDelivered = cfx.lastSeqDelivered := by
  unfold cfxDelLeg
  split <;> exact ⟨rfl, rfl⟩

theorem closeCirc_record (side : Side) (mayLaunch : Bool) (ep : Endpoint) (circ : CircId)
    (why : CloseReason) : ep.SameRecord (ep.closeCirc side mayLaunch circ why) := by
  rcases closeCirc_cases side mayLaunch ep circ why with
    ⟨_, _, eq⟩ | ⟨_, eq⟩ | ⟨_, eq⟩ | ⟨leg, _, _, eq⟩
  · rw [eq]; exact ⟨rfl, rfl, rfl, rfl⟩
  · rw [eq]; exact ⟨rfl, rfl, rfl, rfl⟩
  · rw [eq]; exact ⟨rfl, rfl, rfl, rfl⟩
  · rw [eq]
    obtain ⟨oooQ, delivered⟩ := cfxDelLeg_record (ep.net leg.circ).cc ep.cfx leg.circ
    exact ⟨rfl, rfl, oooQ, delivered⟩

theorem closeCirc_closes (side : Side) (mayLaunch : Bool) {ep : Endpoint} {circ : CircId}
    (why : CloseReason) (mem : circ ∈ ep.cfx.circs ∨ circ ∈ ep.pending) :
    (ep.closeCirc side mayLaunch circ why).closes = (circ, why) :: ep.closes := by
  rcases closeCirc_cases side mayLaunch ep circ why with
    ⟨notLeg, notPending, _⟩ | ⟨_, eq⟩ | ⟨_, eq⟩ | ⟨leg, found, _, eq⟩
  · exact absurd mem (not_or.mpr ⟨notLeg, notPending⟩)
  · rw [eq]; rfl
  · rw [eq]; rfl
  · rw [eq, Endpoint.retire, getLeg_circ found]

theorem closeCirc_currLeg (side : Side) (mayLaunch : Bool) (ep : Endpoint) (circ : CircId)
    (why : CloseReason) :
    (ep.closeCirc side mayLaunch circ why).cfx.currLeg = ep.cfx.currLeg ∨
      (ep.closeCirc side mayLaunch circ why).cfx.circs = [] ∧
        (ep.closeCirc side mayLaunch circ why).cfx.currLeg = none := by
  rcases closeCirc_cases side mayLaunch ep circ why with
    ⟨_, _, eq⟩ | ⟨_, eq⟩ | ⟨_, eq⟩ | ⟨leg, found, survives, eq⟩
  · exact .inl (by rw [eq])
  · exact .inl (by rw [eq]; rfl)
  · exact .inl (by rw [eq]; rfl)
  · have isCirc := getLeg_circ found
    rw [eq]
    by_cases current : ep.cfx.currLeg = some circ
    · right
      rcases survives with notFull | ⟨empty, -⟩
      · simp [cfxDelLeg, found, fullTeardown, current, isCirc] at notFull
      · refine ⟨by simp [Endpoint.retire, isCirc, Conflux.circs, empty], ?_⟩
        simp [Endpoint.retire, isCirc, cfxDelLeg, found, current]
    · left
      simp [Endpoint.retire, isCirc, cfxDelLeg, found, current]

section Close
variable {first : Nat} {snd snd' rcv rcv' : Endpoint} {chan : CircId → List Cell}

theorem shrinks_flow (listens : ∀ c, rcv'.Listens c → rcv.Listens c ∧ rcv'.recvCtr c = rcv.recvCtr c)
    (released : rcv'.released = rcv.released) (oooQ : rcv'.cfx.oooQ = rcv.cfx.oooQ)
    (h : (flow first snd rcv chan).Coherent) :
    (flow first snd rcv' chan).Coherent ∧ ((flow first snd rcv chan).Complete →
      (∀ c, rcv.Listens c → ¬ rcv'.Listens c → decode (rcv.recvCtr c) (tokens chan c) = []) →
        (flow first snd rcv' chan).Complete) := by
  have sub : rcv'.listening ⊆ rcv.listening := fun c mem =>
    Endpoint.mem_listening.mpr (listens c (Endpoint.mem_listening.mp mem)).1
  have alike : ((flow first snd rcv chan).keepReceivers rcv'.listening).Alike
      (flow first snd rcv' chan) :=
    { first := rfl
      sent := rfl
      released := released
      senders := rfl
      curr := rfl
      receivers := rfl
      queue := queued_congr oooQ
      ctr := fun _ _ => rfl
      base := fun c mem => (listens c (Endpoint.mem_listening.mp mem)).2
      chan := fun _ _ => rfl }
  refine ⟨alike.coherent (Flow.keepReceivers_coherent h sub), fun full silent => ?_⟩
  refine alike.complete (Flow.keepReceivers_complete full sub fun c mem out => ?_)
  exact silent c (Endpoint.mem_listening.mp mem) fun listening => out (Endpoint.mem_listening.mpr listening)

variable (first rcv chan snd') in
theorem sender_flow (circs : snd'.cfx.circs = snd.cfx.circs) (sent : snd'.sent = snd.sent)
    (currLeg : snd'.cfx.currLeg = snd.cfx.currLeg) (sentCtr : snd'.sentCtr = snd.sentCtr) :
    flow first snd' rcv chan = flow first snd rcv chan := by
  simp only [flow, circs, sent, currLeg, sentCtr]

variable (first rcv chan) in
theorem closeCirc_flow (side : Side) (mayLaunch : Bool) (circ : CircId) (why : CloseReason)
    (nodup : snd.used.Nodup) (curr : ∀ c, snd.cfx.currLeg = some c → c ∈ snd.cfx.circs)
    (h : (flow first snd rcv chan).Coherent) :
    let after := flow first (snd.closeCirc side mayLaunch circ why) rcv chan
    after.Coherent ∧ ((flow first snd rcv chan).Complete → after.Complete) := by
  have shrinks := closeCirc_shrinks nodup side mayLaunch circ why
  have record := closeCirc_record side mayLaunch snd circ why
  have leg := closeCirc_currLeg side mayLaunch snd circ why
  generalize snd.closeCirc side mayLaunch circ why = snd' at shrinks record leg ⊢
  have kept : ((flow first snd rcv chan).keepSenders snd'.cfx.circs.toFinset snd'.cfx.currLeg).Coherent := by
    refine Flow.keepSenders_coherent h (fun c mem => ?_) ?_ fun c current => ?_
    · exact List.mem_toFinset.mpr (shrinks.circs c (List.mem_toFinset.mp mem)).1
    · exact leg.imp_right fun ⟨noLegs, unset⟩ => ⟨by rw [noLegs]; rfl, unset⟩
    · exact List.mem_toFinset.mpr (shrinks.curr curr c current)
  have alike : ((flow first snd rcv chan).keepSenders snd'.cfx.circs.toFinset snd'.cfx.currLeg).Alike
      (flow first snd' rcv chan) :=
    { first := rfl
      sent := record.sent
      released := rfl
      senders := rfl
      curr := rfl
      receivers := rfl
      queue := rfl
      ctr := fun c _ => congrFun shrinks.sentCtr c
      base := fun _ _ => rfl
      chan := fun _ _ => rfl }
  exact ⟨alike.coherent kept, fun full => alike.complete full⟩

end Close

/-! ## Receiving -/

section Recv
variable {first : Nat} {snd rcv rcv' : Endpoint} {chan : CircId → List Cell} {circ : CircId}
  {cell : Cell} {rest : List Cell} (head : chan circ = cell :: rest)
include head

variable (first snd) in
theorem received_flow (isLeg : circ ∈ rcv.cfx.circs) {n : Nat}
    (moved : n = advance (rcv.recvCtr circ) [cell.token]) :
    flow first snd (rcv.received circ n) (Function.update chan circ rest) =
      (flow first snd rcv chan).pop circ := by
  have one : (tokens chan circ).take 1 = [cell.token] := by simp [tokens, head]
  have listening : (rcv.received circ n).listening = rcv.listening := by
    ext c
    rw [Endpoint.mem_listening, Endpoint.mem_listening, (received_shape rcv circ n).listens]
  simp only [Flow.pop, flow, tokens_pop head, received_recvCtr isLeg, one, ← moved, listening]
  rfl

theorem silent_pop (silent : ∀ r, decode r [cell.token] = []) (isLeg : rcv.Listens circ)
    (h : (flow first snd rcv chan).Coherent) :
    ((flow first snd rcv chan).pop circ).Coherent ∧
      ((flow first snd rcv chan).Complete → ((flow first snd rcv chan).pop circ).Complete) := by
  have front : (flow first snd rcv chan).chan circ = cell.token :: rest.map Cell.token := by
    simp [flow, tokens, head]
  have mem := Endpoint.mem_listening.mpr isLeg
  exact ⟨Flow.pop_coherent h mem front, fun full => Flow.pop_complete full mem front (silent _)⟩

theorem skipped_flow (skipped : ¬ rcv.Listens circ ∨ cell.token = .other)
    (h : (flow first snd rcv chan).Coherent) :
    (flow first snd rcv (Function.update chan circ rest)).Coherent ∧
      ((flow first snd rcv chan).Complete →
        (flow first snd rcv (Function.update chan circ rest)).Complete) := by
  by_cases listening : rcv.Listens circ
  · have other := skipped.resolve_left (not_not.mpr listening)
    have same : flow first snd rcv (Function.update chan circ rest) =
        (flow first snd rcv chan).pop circ := by
      have one : (tokens chan circ).take 1 = [.other] := by simp [tokens, head, other]
      simp only [Flow.pop, flow, tokens_pop head, one, advance, Function.update_eq_self]
    rw [same]
    exact silent_pop head (fun r => by rw [other]; rfl) listening h
  · have alike : (flow first snd rcv chan).Alike (flow first snd rcv (Function.update chan circ rest)) :=
      { first := rfl
        sent := rfl
        released := rfl
        senders := rfl
        curr := rfl
        receivers := rfl
        queue := rfl
        ctr := fun _ _ => rfl
        base := fun _ _ => rfl
        chan := fun c mem => by
          have ne : c ≠ circ := fun eq => listening (eq ▸ Endpoint.mem_listening.mp mem)
          simp [flow, tokens, ne] }
    exact ⟨alike.coherent h, alike.complete⟩

end Recv

section Relay
variable {p : Params} {side : Side} {mayLaunch : Bool} {budget : Option Nat} {first : Nat}
  {snd rcv rcv' : Endpoint} {chan : CircId → List Cell} {circ : CircId} {m : RelayMsg}
  {rest : List Cell}

structure Absorbs (budget : Option Nat) (first : Nat) (snd rcv rcv' : Endpoint)
    (chan chan' : CircId → List Cell) : Prop where
  shape : rcv.SameShape rcv'
  sent : rcv'.sent = rcv.sent
  closes : rcv'.closes = rcv.closes
  currLeg : rcv'.cfx.currLeg = rcv.cfx.currLeg
  delivered : rcv'.cfx.lastSeqDelivered = first + rcv'.released.length
  ordered : rcv.cfx.QueueOrdered → rcv'.cfx.QueueOrdered
  coherent : (flow first snd rcv' chan').Coherent
  complete : (flow first snd rcv chan).Complete → (flow first snd rcv' chan').Complete
  stuck : budget = none → rcv.cfx.QueueOrdered →
    (∀ a, (a, rcv.cfx.lastSeqDelivered + 1) ∉ rcv.cfx.queued) →
    ∀ a, (a, rcv'.cfx.lastSeqDelivered + 1) ∉ rcv'.cfx.queued

section
variable (head : chan circ = .relay m :: rest) (multiplexed : m.command.shouldMultiplex = true)
  (opened : rcv.closed = false) {leg : ConfluxLeg} (found : rcv.cfx.getLeg circ = some leg)
include head multiplexed opened found

private theorem relay_pop :
    circ ∈ rcv.listening ∧
      (flow first snd rcv chan).chan circ = .item m :: rest.map Cell.token ∧
      flow first snd (rcv.received circ (leg.lastSeqRecv + 1)) (Function.update chan circ rest) =
        (flow first snd rcv chan).pop circ := by
  have isLeg := mem_circs_of_getLeg found
  have token : (Cell.relay m).token = .item m := by simp [Cell.token, multiplexed]
  refine ⟨Endpoint.mem_listening.mpr ⟨opened, .inl isLeg⟩, ?_, ?_⟩
  · simp only [flow, tokens, head, List.map_cons, token]
  · exact received_flow _ _ head isLeg (by rw [token, recvCtr_of_getLeg rcv found]; rfl)

variable (h : (flow first snd rcv chan).Coherent)
  (delivered : rcv.cfx.lastSeqDelivered = first + rcv.released.length)
include h delivered

theorem inOrder_absorbs {cfx : Conflux} {q : List ConfluxMsg} {cost : Nat} {msgs : List RelayMsg}
    (next : leg.lastSeqRecv = rcv.cfx.lastSeqDelivered)
    (eq : cfx = { (rcv.received circ (leg.lastSeqRecv + 1)).cfx with
      oooQ := q
      oooQAllocCost := cost
      lastSeqDelivered := rcv.cfx.lastSeqDelivered + 1 + msgs.length })
    (contents : rcv.cfx.queued = ↑(msgs.zipIdx (rcv.cfx.lastSeqDelivered + 2)) +
      ↑(q.map fun m => (m.msg, m.seq)))
    (ordered : rcv.cfx.QueueOrdered → queueOrder.Ordered q)
    (stuck : budget = none → dequeueRelayMsg p cfx = none) :
    Absorbs budget first snd rcv { rcv with cfx := cfx, released := rcv.released ++ m :: msgs } chan
      (Function.update chan circ rest) := by
  obtain ⟨mem, front, popped⟩ := relay_pop head multiplexed opened found
  have shape := received_shape rcv circ (leg.lastSeqRecv + 1)
  have popCoherent := Flow.pop_coherent h mem front
  have start : (flow first snd rcv chan).delivered = rcv.cfx.lastSeqDelivered := delivered.symm
  -- the queue that is left, with the next messages still to be released
  generalize left : ({ (flow first snd rcv chan).pop circ with
    queue := ↑(q.map fun m => (m.msg, m.seq)) } : Flow CircId RelayMsg) = g
  have pending : (flow first snd rcv chan).pending =
      ↑((m :: msgs).zipIdx ((flow first snd rcv chan).delivered + 1)) + g.pending := by
    have base : (flow first snd rcv chan).base circ = rcv.cfx.lastSeqDelivered := by
      rw [← next]
      exact recvCtr_of_getLeg rcv found
    have stored : ((flow first snd rcv chan).pop circ).pending =
        ↑(msgs.zipIdx (rcv.cfx.lastSeqDelivered + 2)) + g.pending := by
      subst left
      change rcv.cfx.queued + ((flow first snd rcv chan).pop circ).flight = _
      rw [contents, add_assoc]
      rfl
    rw [Flow.pop_pending mem front, stored, base, start, List.zipIdx_cons, ← Multiset.cons_coe,
      Multiset.cons_add]
    simp [decode]
  have smaller : g.Coherent := by
    have window := h.window
    rw [pending] at window
    subst left
    exact { popCoherent with window := (Multiset.le_add_left _ _).trans window }
  obtain ⟨coherent, complete⟩ := Flow.releaseAll_coherent h smaller (by subst left; rfl)
    (by subst left; rfl) (by subst left; rfl) pending
  have same : flow first snd { rcv with cfx := cfx, released := rcv.released ++ m :: msgs }
      (Function.update chan circ rest) = g.releaseAll (m :: msgs) := by
    subst left eq
    rw [← popped]
    rfl
  rw [← same] at coherent complete
  have count : cfx.lastSeqDelivered = first + (rcv.released ++ m :: msgs).length := by
    subst eq
    dsimp only
    rw [delivered, List.length_append, List.length_cons]
    omega
  have heap : rcv.cfx.QueueOrdered → cfx.QueueOrdered := fun before => by
    subst eq
    exact ordered before
  have currLeg : cfx.currLeg = rcv.cfx.currLeg := by subst eq; rfl
  have circs : cfx.circs = rcv.cfx.circs := by subst eq; exact shape.circs
  exact
    { shape := ⟨circs, rfl, rfl, rfl⟩
      sent := rfl
      closes := rfl
      currLeg := currLeg
      delivered := count
      ordered := heap
      coherent := coherent
      complete := complete
      stuck := fun all before _ => by
        refine next_notMem_of_dequeue_none (stuck all) (heap before) fun entry inQueue => ?_
        have later := coherent.pending_lt (a := entry.1) (n := entry.2)
          (Multiset.mem_add.mpr (.inl inQueue))
        rw [count]
        exact later }

theorem queued_absorbs {q : List ConfluxMsg} {cost : Nat}
    (early : rcv.cfx.lastSeqDelivered < leg.lastSeqRecv)
    (contents : (↑(q.map fun m => (m.msg, m.seq)) : Multiset (RelayMsg × Nat)) =
      (m, leg.lastSeqRecv + 1) ::ₘ rcv.cfx.queued)
    (ordered : rcv.cfx.QueueOrdered → queueOrder.Ordered q) :
    Absorbs budget first snd rcv { rcv with
        cfx := { (rcv.received circ (leg.lastSeqRecv + 1)).cfx with oooQ := q, oooQAllocCost := cost } }
      chan (Function.update chan circ rest) := by
  obtain ⟨mem, front, popped⟩ := relay_pop head multiplexed opened found
  have base : (flow first snd rcv chan).base circ = leg.lastSeqRecv := recvCtr_of_getLeg rcv found
  have same : flow first snd { rcv with
      cfx := { (rcv.received circ (leg.lastSeqRecv + 1)).cfx with oooQ := q, oooQAllocCost := cost } }
      (Function.update chan circ rest) =
      ((flow first snd rcv chan).pop circ).store m ((flow first snd rcv chan).base circ + 1) := by
    rw [← popped, base]
    simp only [Flow.store, flow]
    congr 1
  have shape := received_shape rcv circ (leg.lastSeqRecv + 1)
  exact
    { shape := ⟨shape.circs, rfl, rfl, rfl⟩
      sent := rfl
      closes := rfl
      currLeg := rfl
      delivered := delivered
      ordered := ordered
      coherent := by
        rw [same]
        exact Flow.pop_store_coherent h mem front
      complete := fun full => by
        rw [same]
        exact Flow.pop_store_complete full mem front
      stuck := fun _ _ before a inQueue => by
        have member : (a, rcv.cfx.lastSeqDelivered + 1) ∈ (m, leg.lastSeqRecv + 1) ::ₘ rcv.cfx.queued := by
          rw [← contents]
          exact inQueue
        rcases Multiset.mem_cons.mp member with eq | old
        · have := (Prod.mk.inj eq).2
          omega
        · exact before a old }

end

theorem switch_absorbs {relativeSeq : Nat} (head : chan circ = .switch relativeSeq :: rest)
    (nodup : rcv.used.Nodup) (isLeg : circ ∈ rcv.cfx.circs) (opened : rcv.closed = false)
    (h : (flow first snd rcv chan).Coherent)
    (delivered : rcv.cfx.lastSeqDelivered = first + rcv.released.length) :
    Absorbs budget first snd rcv (recvSwitch side mayLaunch rcv circ relativeSeq) chan
      (Function.update chan circ rest) := by
  obtain ⟨leg, found⟩ := exists_getLeg isLeg
  have moved : recvSwitch side mayLaunch rcv circ relativeSeq =
      rcv.received circ (leg.lastSeqRecv + relativeSeq) := by
    have eq : processSwitchCommand rcv.cfx circ relativeSeq =
        (rcv.received circ (leg.lastSeqRecv + relativeSeq)).cfx :=
      modifyLeg_congr (Endpoint.circs_nodup nodup) found rfl
    simp only [recvSwitch, found, Option.isSome_some, if_true, eq]
    rfl
  have popped := received_flow first snd head isLeg
    (n := leg.lastSeqRecv + relativeSeq) (by rw [recvCtr_of_getLeg rcv found]; rfl)
  obtain ⟨coherent, complete⟩ := silent_pop head (fun _ => rfl) ⟨opened, .inl isLeg⟩ h
  rw [← popped] at coherent complete
  rw [moved]
  exact ⟨received_shape _ _ _, rfl, rfl, rfl, delivered, id, coherent, complete, fun _ _ before => before⟩

theorem RelayEffect.flow (effect : RelayEffect p side mayLaunch budget rcv circ m rcv')
    (head : chan circ = .relay m :: rest) (isLeg : circ ∈ rcv.cfx.circs)
    (opened : rcv.closed = false) (h : (flow first snd rcv chan).Coherent)
    (delivered : rcv.cfx.lastSeqDelivered = first + rcv.released.length) :
    Absorbs budget first snd rcv rcv' chan (Function.update chan circ rest) ∨
      ∃ n, rcv' = (rcv.received circ n).closeCirc side mayLaunch circ .oooqAtMaximum ∧
        (TorJet.flow first snd (rcv.received circ n) (Function.update chan circ rest)).Coherent := by
  cases effect with
  | bypass outside =>
      have plain := outside.resolve_left (not_not.mpr isLeg)
      have other : (Cell.relay m).token = .other := by simp [Cell.token, plain]
      obtain ⟨coherent, complete⟩ := skipped_flow head (.inr other) h
      exact .inl ⟨⟨rfl, rfl, rfl, rfl⟩, rfl, rfl, rfl, delivered, id, coherent, complete,
        fun _ _ before => before⟩
  | inOrder multiplexed found next eq contents ordered stuck =>
      exact .inl (inOrder_absorbs head multiplexed opened found h delivered next eq contents ordered stuck)
  | queued multiplexed found early contents ordered =>
      exact .inl (queued_absorbs head multiplexed opened found h delivered early contents ordered)
  | full multiplexed found =>
      obtain ⟨mem, front, popped⟩ := relay_pop head multiplexed opened found
      refine .inr ⟨_, rfl, ?_⟩
      rw [popped]
      exact Flow.pop_coherent h mem front
  | stale multiplexed found old =>
      obtain ⟨mem, front, -⟩ := relay_pop head multiplexed opened found
      have new := Flow.item_lt h mem front
      rw [show (TorJet.flow first snd rcv chan).base circ = _ from recvCtr_of_getLeg rcv found,
        show (TorJet.flow first snd rcv chan).delivered = rcv.cfx.lastSeqDelivered from delivered.symm]
        at new
      omega

end Relay
end TorJet
