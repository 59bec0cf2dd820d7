import TorJet.Conflux.Lanes

/-!
# What a send and an arriving message do to an endpoint

Each effect is listed once, with everything later proofs need of it.
-/

namespace TorJet
open Smartlist Base

section Modify
variable {cfx : Conflux} {circ : CircId} {leg : ConfluxLeg} {f g : ConfluxLeg → ConfluxLeg}

theorem modifyLeg_congr (nodup : cfx.circs.Nodup) (found : cfx.getLeg circ = some leg)
    (same : f leg = g leg) : cfx.modifyLeg circ f = cfx.modifyLeg circ g := by
  unfold Conflux.modifyLeg
  congr 1
  refine List.map_congr_left fun l mem => ?_
  split
  · rename_i isCirc
    have this : cfx.getLeg circ = some l := (find?_key_iff nodup).mpr ⟨mem, isCirc⟩
    obtain rfl : leg = l := Option.some.inj (found.symm.trans this)
    exact same
  · rfl

theorem modifyLeg_modifyLeg (keeps : ∀ l, (f l).circ = l.circ) :
    (cfx.modifyLeg circ f).modifyLeg circ g = cfx.modifyLeg circ (g ∘ f) := by
  unfold Conflux.modifyLeg
  simp only [List.map_map]
  congr 1
  refine List.map_congr_left fun l _ => ?_
  simp only [Function.comp]
  split
  · rename_i isCirc
    rw [if_pos ((keeps l).trans isCirc)]
  · rfl

end Modify

/-- A set after a multiplexed cell went out on `circ` with number `n`. -/
def Conflux.afterSend (cfx : Conflux) (circ : CircId) (n cellsUntilSwitch : Nat)
    (prevLeg : Option CircId) : Conflux :=
  { cfx.modifyLeg circ (fun leg => { leg with lastSeqSent := n }) with
    cellsUntilSwitch := cellsUntilSwitch
    prevLeg := prevLeg
    currLeg := some circ }

/-- The endpoint after a multiplexed cell went out with number `n`. -/
def Endpoint.sentOn (ep : Endpoint) (base : Conflux) (circ : CircId) (n cells : Nat)
    (prevLeg : Option CircId) (m : RelayMsg) : Endpoint :=
  { ep with cfx := base.afterSend circ n cells prevLeg, sent := ep.sent ++ [m] }

/-- The outcomes of `sendMsg`. -/
inductive SendEffect (ep : Endpoint) (origCirc : CircId) (m : RelayMsg) :
    Endpoint × CircId × List Cell → Prop
  | bypass (plain : m.command.shouldMultiplex = false) :
      SendEffect ep origCirc m (ep, origCirc, [.relay m])
  | held {base : Conflux} (settled : Settled ep.cfx base) :
      SendEffect ep origCirc m ({ ep with cfx := base }, origCirc, [])
  | onCurrent {base : Conflux} {leg : ConfluxLeg} {cells : Nat} {prevLeg : Option CircId}
      (multiplexed : m.command.shouldMultiplex = true) (settled : Settled ep.cfx base)
      (current : base.currLeg = some leg.circ) (found : base.getLeg leg.circ = some leg) :
      SendEffect ep origCirc m
        (ep.sentOn base leg.circ (leg.lastSeqSent + 1) cells prevLeg m, leg.circ, [.relay m])
  | switched {base : Conflux} {prev leg : ConfluxLeg} {cells : Nat} {prevLeg : Option CircId}
      (multiplexed : m.command.shouldMultiplex = true) (settled : Settled ep.cfx base)
      (current : base.currLeg = some prev.circ) (prevFound : base.getLeg prev.circ = some prev)
      (found : base.getLeg leg.circ = some leg) (le : leg.lastSeqSent ≤ prev.lastSeqSent) :
      SendEffect ep origCirc m
        (ep.sentOn base leg.circ (prev.lastSeqSent + 1) cells prevLeg m, leg.circ,
          [.switch (prev.lastSeqSent - leg.lastSeqSent), .relay m])
  | incoherent {base : Conflux} {prev leg : ConfluxLeg} (settled : Settled ep.cfx base)
      (current : base.currLeg = some prev.circ) (prevFound : base.getLeg prev.circ = some prev)
      (found : base.getLeg leg.circ = some leg) (gt : prev.lastSeqSent < leg.lastSeqSent) :
      SendEffect ep origCirc m (ep.teardown origCirc .incoherentSeq, origCirc, [])
  | tooHigh : SendEffect ep origCirc m (ep.teardown origCirc .switchTooHigh, origCirc, [])

theorem Settled.circs {cfx base : Conflux} (settled : Settled cfx base) : base.circs = cfx.circs := by
  rcases settled with rfl | ⟨_, _, _, rfl⟩ <;> rfl

theorem Settled.legs {cfx base : Conflux} (settled : Settled cfx base) : base.legs = cfx.legs := by
  rcases settled with rfl | ⟨_, _, _, rfl⟩ <;> rfl

theorem Settled.currLeg_mem {cfx base : Conflux} (settled : Settled cfx base)
    (curr : ∀ c, cfx.currLeg = some c → c ∈ cfx.circs) {c : CircId} (h : base.currLeg = some c) :
    c ∈ base.circs := by
  rcases settled with rfl | ⟨_, picked, mem, rfl⟩
  · exact curr c h
  · obtain rfl : picked = c := Option.some.inj h
    exact mem

private theorem noteCellSent_eq (cfx : Conflux) (leg : ConfluxLeg) {command : RelayCommand}
    (multiplexed : command.shouldMultiplex = true) (nodup : cfx.circs.Nodup)
    (current : cfx.currLeg = some leg.circ) (found : cfx.getLeg leg.circ = some leg) :
    noteCellSent cfx leg.circ command =
      cfx.afterSend leg.circ (leg.lastSeqSent + 1) (cfx.cellsUntilSwitch - 1) cfx.prevLeg := by
  simp only [noteCellSent, multiplexed, found, Bool.not_true, Bool.false_eq_true, if_false,
    Option.isNone_some, Conflux.afterSend, ← current]
  rw [modifyLeg_congr (g := fun l => { l with lastSeqSent := leg.lastSeqSent + 1 }) nodup found rfl]
  rfl

theorem sendMsg_effect {p : Params} {ep : Endpoint} (origCirc : CircId) (m : RelayMsg)
    (nodup : ep.cfx.circs.Nodup) (curr : ∀ c, ep.cfx.currLeg = some c → c ∈ ep.cfx.circs) :
    SendEffect ep origCirc m (sendMsg p ep origCirc m) := by
  cases multiplexed : m.command.shouldMultiplex with
  | false =>
      have plain : sendMsg p ep origCirc m = (ep, origCirc, [.relay m]) := by
        simp [sendMsg, decideCircForSend, multiplexed, sendMsg.packaged, noteCellSent]
      rw [plain]
      exact .bypass multiplexed
  | true =>
      obtain ⟨base, settled, nothing | ⟨circ, current, on⟩ | ⟨prev, leg, current, prevFound, found, ne, sw⟩⟩ :=
        decideCircForSend_cases (p := p) ep.cfx origCirc multiplexed
      · rw [sendMsg, nothing]
        exact .held settled
      · obtain ⟨leg, found⟩ := exists_getLeg (settled.currLeg_mem curr current)
        obtain rfl : leg.circ = circ := getLeg_circ found
        rw [sendMsg, on]
        simp only [sendMsg.packaged, multiplexed, if_true]
        rw [noteCellSent_eq _ _ multiplexed (settled.circs ▸ nodup) current found]
        exact .onCurrent multiplexed settled current found
      · by_cases gt : prev.lastSeqSent < leg.lastSeqSent
        · simp only [sendMsg, sw, switchLeg, if_pos gt]
          exact .incoherent settled current prevFound found gt
        · by_cases high : uint32Max ≤ prev.lastSeqSent - leg.lastSeqSent
          · simp only [sendMsg, sw, switchLeg, if_neg gt, if_pos high]
            exact .tooHigh
          · simp only [sendMsg, sw, switchLeg, if_neg gt, if_neg high, sendMsg.packaged, multiplexed,
              if_true]
            have moved := noteCellSent_eq
              (Conflux.modifyLeg { base with
                cellsUntilSwitch := 0, prevLeg := some prev.circ, currLeg := some leg.circ }
                leg.circ fun l => { l with lastSeqSent := prev.lastSeqSent })
              { leg with lastSeqSent := prev.lastSeqSent } multiplexed
              (by rw [circs_modifyLeg fun _ => by rfl]; exact settled.circs ▸ nodup) rfl
              (by rw [getLeg_modifyLeg fun _ => by rfl, if_pos rfl]
                  exact congrArg (Option.map _) found)
            dsimp only at moved
            rw [moved, Conflux.afterSend, modifyLeg_modifyLeg fun _ => by rfl]
            exact @SendEffect.switched _ _ _ base _ _ _ _ multiplexed settled current prevFound found
              (Nat.le_of_not_lt gt)

/-- The endpoint with the receive counter of a leg set to `n`. -/
def Endpoint.received (ep : Endpoint) (circ : CircId) (n : Nat) : Endpoint :=
  { ep with cfx := ep.cfx.modifyLeg circ fun leg => { leg with lastSeqRecv := n } }

/-- What every receipt has in common: one token was taken off `circ`, and circuits may have been
given up on it. -/
structure Endpoint.Takes (ep ep' : Endpoint) (circ : CircId) (t : Token RelayMsg) : Prop where
  nodup : ep'.used.Nodup
  used : ∀ c ∈ ep'.used, c ∈ ep.used
  known : ∀ c, ep'.Known c ↔ ep.Known c
  sentCtr : ep'.sentCtr = ep.sentCtr
  unlinked : ∀ leg ∈ ep'.unlinked, leg ∈ ep.unlinked
  curr : ∀ c, ep'.cfx.currLeg = some c → c ∈ ep'.cfx.circs
  circs : ∀ c ∈ ep'.cfx.circs, c ∈ ep.cfx.circs ∧ (ep'.recvCtr c = ep.recvCtr c ∨
    c = circ ∧ ep'.recvCtr c = advance (ep.recvCtr c) [t])
  listens : ∀ c, ep'.Listens c → ep.Listens c
  other : ∀ c, c ≠ circ → ep'.Listens c → ep'.recvCtr c = ep.recvCtr c
  here : ep'.Listens circ → ep'.recvCtr circ = advance (ep.recvCtr circ) [t]

/-- What every send has in common: the counter of `circ` moves with the cells put on it. -/
structure Endpoint.Sends (ep ep' : Endpoint) (circ : CircId) (cells : List Cell) : Prop where
  shape : ep.SameShape ep'
  recvCtr : ep'.recvCtr = ep.recvCtr
  curr : ∀ c, ep'.cfx.currLeg = some c → c ∈ ep'.cfx.circs
  mem : circ ∈ ep.cfx.circs
  plain : ∀ l, .link l ∉ cells ∧ .linked l ∉ cells
  other : ∀ c, c ≠ circ → ep'.sentCtr c = ep.sentCtr c
  here : ep'.sentCtr circ = advance (ep.sentCtr circ) (cells.map Cell.token)

namespace Endpoint
variable {ep mid last : Endpoint} {circ : CircId} {t : Token RelayMsg}

theorem Takes.shrinks (takes : ep.Takes mid circ t) (shrinks : mid.Shrinks last) :
    ep.Takes last circ t where
  nodup := shrinks.nodup
  used c mem := takes.used c (shrinks.used c mem)
  known c := (shrinks.known c).trans (takes.known c)
  sentCtr := shrinks.sentCtr.trans takes.sentCtr
  unlinked leg mem := takes.unlinked leg (shrinks.unlinked leg mem)
  curr := shrinks.curr takes.curr
  circs c mem := by
    obtain ⟨was, same⟩ := shrinks.circs c mem
    rw [same]
    exact takes.circs c was
  listens c listening := takes.listens c (shrinks.listens c listening).1
  other c ne listening := by
    obtain ⟨was, same⟩ := shrinks.listens c listening
    rw [same]
    exact takes.other c ne was
  here listening := by
    obtain ⟨was, same⟩ := shrinks.listens circ listening
    rw [same]
    exact takes.here was

theorem Shrinks.takes (shrinks : ep.Shrinks last)
    (curr : ∀ c, ep.cfx.currLeg = some c → c ∈ ep.cfx.circs) (gone : ¬ last.Listens circ) :
    ep.Takes last circ t where
  nodup := shrinks.nodup
  used := shrinks.used
  known := shrinks.known
  sentCtr := shrinks.sentCtr
  unlinked := shrinks.unlinked
  curr := shrinks.curr curr
  circs c mem := ⟨(shrinks.circs c mem).1, .inl (shrinks.circs c mem).2⟩
  listens c listening := (shrinks.listens c listening).1
  other c _ listening := (shrinks.listens c listening).2
  here listening := absurd listening gone

theorem SameShape.takes (shape : ep.SameShape last) (nodup : ep.used.Nodup)
    (curr : ∀ c, last.cfx.currLeg = some c → c ∈ last.cfx.circs) (sent : last.sentCtr = ep.sentCtr)
    (recv : last.recvCtr = Function.update ep.recvCtr circ (advance (ep.recvCtr circ) [t])) :
    ep.Takes last circ t where
  nodup := shape.used ▸ nodup
  used c mem := shape.used ▸ mem
  known := shape.known
  sentCtr := sent
  unlinked leg mem := shape.unlinked ▸ mem
  curr := curr
  circs c mem := by
    refine ⟨shape.circs ▸ mem, ?_⟩
    rw [recv]
    by_cases same : c = circ
    · subst same
      exact .inr ⟨rfl, Function.update_self _ _ _⟩
    · exact .inl (Function.update_of_ne same _ _)
  listens c := (shape.listens c).mp
  other c ne _ := by rw [recv, Function.update_of_ne ne]
  here _ := by rw [recv, Function.update_self]

end Endpoint

theorem received_shape (ep : Endpoint) (circ : CircId) (n : Nat) : ep.SameShape (ep.received circ n) :=
  ⟨circs_modifyLeg fun _ => by rfl, rfl, rfl, rfl⟩

theorem received_recvCtr {ep : Endpoint} {circ : CircId} (mem : circ ∈ ep.cfx.circs) (n : Nat) :
    (ep.received circ n).recvCtr = Function.update ep.recvCtr circ n := by
  obtain ⟨leg, found⟩ := exists_getLeg mem
  exact recvCtr_modifyLeg ep (fun _ => by rfl) found

theorem received_sentCtr (ep : Endpoint) (circ : CircId) (n : Nat) :
    (ep.received circ n).sentCtr = ep.sentCtr := by
  cases found : ep.cfx.getLeg circ with
  | some leg =>
      rw [Endpoint.received, sentCtr_modifyLeg ep (fun _ => by rfl) found,
        ← sentCtr_of_getLeg ep found]
      exact Function.update_eq_self _ _
  | none =>
      funext c
      simp only [Endpoint.received, Endpoint.sentCtr, Endpoint.getRetired,
        getLeg_modifyLeg (f := fun leg => { leg with lastSeqRecv := n }) (fun _ => by rfl)]
      split
      · rename_i here
        rw [here, found]
        rfl
      · rfl

section SentOn
variable {ep : Endpoint} {base : Conflux} {leg : ConfluxLeg} (settled : Settled ep.cfx base)
  (n cells : Nat) (prevLeg : Option CircId) (m : RelayMsg)
include settled

theorem sentOn_shape (circ : CircId) : ep.SameShape (ep.sentOn base circ n cells prevLeg m) :=
  ⟨(circs_modifyLeg fun _ => by rfl).trans settled.circs, rfl, rfl, rfl⟩

theorem sentOn_sentCtr (found : base.getLeg leg.circ = some leg) :
    (ep.sentOn base leg.circ n cells prevLeg m).sentCtr = Function.update ep.sentCtr leg.circ n := by
  have legs : ({ ep with cfx := base } : Endpoint).sentCtr = ep.sentCtr :=
    sentCtr_congr settled.legs rfl
  rw [← legs]
  exact sentCtr_modifyLeg { ep with cfx := base } (f := fun l => { l with lastSeqSent := n })
    (fun _ => rfl) found

theorem sentOn_recvCtr (found : base.getLeg leg.circ = some leg) :
    (ep.sentOn base leg.circ n cells prevLeg m).recvCtr = ep.recvCtr := by
  have legs : ({ ep with cfx := base } : Endpoint).recvCtr = ep.recvCtr :=
    recvCtr_congr settled.legs rfl
  have updated := recvCtr_modifyLeg { ep with cfx := base } (f := fun l => { l with lastSeqSent := n })
    (fun _ => rfl) found
  rw [← legs]
  refine Eq.trans updated ?_
  rw [← recvCtr_of_getLeg { ep with cfx := base } found]
  exact Function.update_eq_self _ _

theorem settled_sentCtr (found : base.getLeg leg.circ = some leg) :
    ep.sentCtr leg.circ = leg.lastSeqSent := by
  rw [← sentCtr_congr (show ({ ep with cfx := base } : Endpoint).cfx.legs = _ from settled.legs) rfl]
  exact sentCtr_of_getLeg { ep with cfx := base } found

end SentOn

theorem SendEffect.sends {ep : Endpoint} {origCirc : CircId} {m : RelayMsg}
    {r : Endpoint × CircId × List Cell} (effect : SendEffect ep origCirc m r)
    (nodup : ep.used.Nodup) (curr : ∀ c, ep.cfx.currLeg = some c → c ∈ ep.cfx.circs)
    (isLeg : origCirc ∈ ep.cfx.circs) :
    ep.Sends r.1 r.2.1 r.2.2 ∨
      ep.Shrinks r.1 ∧ r.2.2 = [] ∧ r.1.closes ≠ [] ∧ r.1.closed = true := by
  have currSent {base : Conflux} {leg : ConfluxLeg} (settled : Settled ep.cfx base) (n cells : Nat)
      (prevLeg : Option CircId) (found : base.getLeg leg.circ = some leg) :
      ∀ c, (ep.sentOn base leg.circ n cells prevLeg m).cfx.currLeg = some c →
        c ∈ (ep.sentOn base leg.circ n cells prevLeg m).cfx.circs := by
    intro c current
    obtain rfl : leg.circ = c := Option.some.inj current
    rw [(sentOn_shape settled n cells prevLeg m leg.circ).circs, ← settled.circs]
    exact mem_circs_of_getLeg found
  cases effect with
  | bypass plain =>
      refine .inl ⟨⟨rfl, rfl, rfl, rfl⟩, rfl, curr, isLeg, by simp, fun _ _ => rfl, ?_⟩
      simp [Cell.token, plain, advance]
  | @held base settled =>
      have sent : ({ ep with cfx := base } : Endpoint).sentCtr = ep.sentCtr :=
        sentCtr_congr settled.legs rfl
      exact .inl ⟨⟨settled.circs, rfl, rfl, rfl⟩, recvCtr_congr settled.legs rfl,
        fun c current => settled.currLeg_mem curr current, isLeg, by simp,
        fun c _ => congrFun sent c, congrFun sent _⟩
  | @onCurrent base leg cells prevLeg multiplexed settled current found =>
      refine .inl ⟨sentOn_shape settled _ _ _ _ _, sentOn_recvCtr settled _ _ _ _ found,
        currSent settled _ _ _ found, settled.circs ▸ mem_circs_of_getLeg found, by simp, ?_, ?_⟩
      · intro c ne
        rw [sentOn_sentCtr settled _ _ _ _ found, Function.update_of_ne ne]
      · rw [sentOn_sentCtr settled _ _ _ _ found, Function.update_self, settled_sentCtr settled found]
        simp [Cell.token, multiplexed, advance]
  | @switched base prev leg cells prevLeg multiplexed settled current prevFound found le =>
      refine .inl ⟨sentOn_shape settled _ _ _ _ _, sentOn_recvCtr settled _ _ _ _ found,
        currSent settled _ _ _ found, settled.circs ▸ mem_circs_of_getLeg found, by simp, ?_, ?_⟩
      · intro c ne
        rw [sentOn_sentCtr settled _ _ _ _ found, Function.update_of_ne ne]
      · rw [sentOn_sentCtr settled _ _ _ _ found, Function.update_self, settled_sentCtr settled found]
        simp only [List.map_cons, Cell.token, multiplexed, if_true, List.map_nil, advance]
        omega
  | incoherent => exact .inr ⟨teardown_shrinks nodup _ _, rfl, List.cons_ne_nil _ _, rfl⟩
  | tooHigh => exact .inr ⟨teardown_shrinks nodup _ _, rfl, List.cons_ne_nil _ _, rfl⟩

def Endpoint.finalized (ep : Endpoint) : Endpoint :=
  { ep with cfx := addLegs ep.cfx ep.unlinked, unlinked := [] }

section Finalized
variable {ep : Endpoint} (nodup : ep.used.Nodup)

theorem finalized_circs (ep : Endpoint) :
    ep.finalized.cfx.circs.Perm (ep.cfx.circs ++ ep.pending) := by
  obtain ⟨alg, eq⟩ := addLegs_eq ep.cfx ep.unlinked
  simp only [Endpoint.finalized, eq, Conflux.circs, List.map_append, List.map_map]
  exact ((drained_perm ep.unlinked).map _).append_left _

theorem finalized_used (ep : Endpoint) : ep.finalized.used.Perm ep.used := by
  simp only [Endpoint.used, Endpoint.pending, Endpoint.finalized, List.map_nil, List.append_nil]
  exact (finalized_circs ep).append_right _

theorem finalized_known (ep : Endpoint) (c : CircId) :
    ep.finalized.Known c ↔ ep.Known c ∨ c ∈ ep.pending := by
  have mem := (finalized_circs ep).mem_iff (a := c)
  simp only [Endpoint.Known, mem, List.mem_append]
  simp only [Endpoint.finalized]
  tauto

theorem finalized_listens (ep : Endpoint) (c : CircId) : ep.finalized.Listens c ↔ ep.Listens c := by
  have mem := (finalized_circs ep).mem_iff (a := c)
  simp only [Endpoint.Listens, mem, List.mem_append]
  simp [Endpoint.finalized, Endpoint.pending]

include nodup

theorem finalized_getLeg (c : CircId) :
    ep.finalized.cfx.getLeg c = (ep.cfx.getLeg c).or ((ep.getPending c).map PendingLeg.toLeg) := by
  obtain ⟨alg, eq⟩ := addLegs_eq ep.cfx ep.unlinked
  have perm := drained_perm ep.unlinked
  have same := find?_key_perm (Endpoint.pending_nodup nodup) perm.symm c
  simp only [Endpoint.finalized, eq, Conflux.getLeg, List.find?_append, List.find?_map]
  simp only [Endpoint.getPending, same]
  rfl

theorem finalized_recvCtr : ep.finalized.recvCtr = ep.recvCtr := by
  funext c
  simp only [Endpoint.recvCtr, finalized_getLeg nodup]
  cases ep.cfx.getLeg c with
  | some leg => rfl
  | none => cases pending : ep.getPending c <;> simp [PendingLeg.toLeg, Endpoint.getPending, Endpoint.finalized]

theorem finalized_sentCtr_of_known {c : CircId} (known : ep.Known c) :
    ep.finalized.sentCtr c = ep.sentCtr c := by
  have notPending : ep.getPending c = none := by
    rw [← Option.not_isSome_iff_eq_none, Endpoint.getPending_isSome]
    rcases known with mem | mem
    · exact Endpoint.notMem_pending nodup mem
    · exact fun isPending => Endpoint.notMem_retired nodup (.inr isPending) mem
  simp only [Endpoint.sentCtr, finalized_getLeg nodup, notPending, Option.map_none, Option.or_none]
  rfl

theorem finalized_sentCtr_of_pending {leg : PendingLeg} (mem : leg ∈ ep.unlinked) :
    ep.finalized.sentCtr leg.circ = leg.link.lastSeqnoRecv := by
  have isPending : leg.circ ∈ ep.pending := List.mem_map_of_mem mem
  have notLeg : ep.cfx.getLeg leg.circ = none :=
    getLeg_eq_none fun isLeg => Endpoint.notMem_pending nodup isLeg isPending
  have found : ep.getPending leg.circ = some leg :=
    (find?_key_iff (Endpoint.pending_nodup nodup)).mpr ⟨mem, rfl⟩
  simp [Endpoint.sentCtr, finalized_getLeg nodup, notLeg, found, PendingLeg.toLeg]

end Finalized

theorem getOrCreate_shrinks {ep : Endpoint} (nodup : ep.used.Nodup) (noPending : ep.unlinked = [])
    (nonce : Nonce) : ep.Shrinks (ep.getOrCreate nonce) := by
  unfold Endpoint.getOrCreate
  split
  · have used : (ep.fresh nonce).used = ep.used := by
      simp [Endpoint.used, Endpoint.fresh, Endpoint.pending, noPending, Conflux.new, Conflux.circs]
    exact
      { nodup := used ▸ nodup
        used := fun c mem => used ▸ mem
        known := fun c => by simp [Endpoint.Known, Endpoint.fresh, Conflux.new, Conflux.circs]
        sentCtr := funext fun c => by
          simp only [Endpoint.sentCtr, Endpoint.fresh, Conflux.new, Conflux.getLeg, List.find?_nil,
            Option.none_or, Endpoint.getRetired, List.find?_append]
        circs := fun c mem => by cases mem
        unlinked := fun leg mem => by cases mem
        listens := fun c listening => by
          simp [Endpoint.Listens, Endpoint.fresh, Conflux.new, Conflux.circs, Endpoint.pending] at listening
        curr := fun _ c current => by cases current }
  · exact .refl nodup

/-- The outcomes of `recvRelay`. -/
inductive RelayEffect (p : Params) (side : Side) (mayLaunch : Bool) (budget : Option Nat)
    (ep : Endpoint) (circ : CircId) (m : RelayMsg) : Endpoint → Prop
  | bypass (outside : circ ∉ ep.cfx.circs ∨ m.command.shouldMultiplex = false) :
      RelayEffect p side mayLaunch budget ep circ m ep
  | inOrder {leg : ConfluxLeg} {cfx : Conflux} {q : List ConfluxMsg} {cost : Nat} {msgs : List RelayMsg}
      (multiplexed : m.command.shouldMultiplex = true) (found : ep.cfx.getLeg circ = some leg)
      (next : leg.lastSeqRecv = ep.cfx.lastSeqDelivered)
      (eq : cfx = { (ep.received circ (leg.lastSeqRecv + 1)).cfx with
        oooQ := q
        oooQAllocCost := cost
        lastSeqDelivered := ep.cfx.lastSeqDelivered + 1 + msgs.length })
      (contents : ep.cfx.queued = ↑(msgs.zipIdx (ep.cfx.lastSeqDelivered + 2)) +
        ↑(q.map fun m => (m.msg, m.seq)))
      (ordered : ep.cfx.QueueOrdered → queueOrder.Ordered q)
      (stuck : budget = none → dequeueRelayMsg p cfx = none) :
      RelayEffect p side mayLaunch budget ep circ m
        { ep with cfx := cfx, released := ep.released ++ m :: msgs }
  | queued {leg : ConfluxLeg} {q : List ConfluxMsg} {cost : Nat}
      (multiplexed : m.command.shouldMultiplex = true) (found : ep.cfx.getLeg circ = some leg)
      (early : ep.cfx.lastSeqDelivered < leg.lastSeqRecv)
      (contents : (↑(q.map fun m => (m.msg, m.seq)) : Multiset (RelayMsg × Nat)) =
        (m, leg.lastSeqRecv + 1) ::ₘ ep.cfx.queued)
      (ordered : ep.cfx.QueueOrdered → queueOrder.Ordered q) :
      RelayEffect p side mayLaunch budget ep circ m
        { ep with
          cfx := { (ep.received circ (leg.lastSeqRecv + 1)).cfx with oooQ := q, oooQAllocCost := cost } }
  | full {leg : ConfluxLeg} (multiplexed : m.command.shouldMultiplex = true)
      (found : ep.cfx.getLeg circ = some leg) (early : ep.cfx.lastSeqDelivered < leg.lastSeqRecv) :
      RelayEffect p side mayLaunch budget ep circ m
        ((ep.received circ (leg.lastSeqRecv + 1)).closeCirc side mayLaunch circ .oooqAtMaximum)
  | stale {leg : ConfluxLeg} (multiplexed : m.command.shouldMultiplex = true)
      (found : ep.cfx.getLeg circ = some leg) (old : leg.lastSeqRecv + 1 ≤ ep.cfx.lastSeqDelivered) :
      RelayEffect p side mayLaunch budget ep circ m
        ((ep.received circ (leg.lastSeqRecv + 1)).closeCirc side mayLaunch circ .seqNotNew)

section RelayEffect
variable {p : Params} {side : Side} {mayLaunch : Bool} {budget : Option Nat} {ep ep' : Endpoint}
  {circ : CircId} {m : RelayMsg}

theorem received_takes (nodup : ep.used.Nodup)
    (curr : ∀ c, ep.cfx.currLeg = some c → c ∈ ep.cfx.circs) {leg : ConfluxLeg}
    (found : ep.cfx.getLeg circ = some leg) {n : Nat} {t : Token RelayMsg}
    (moved : n = advance leg.lastSeqRecv [t]) : ep.Takes (ep.received circ n) circ t := by
  refine (received_shape ep circ n).takes nodup ?_ (received_sentCtr ep circ n) ?_
  · intro c current
    rw [(received_shape ep circ n).circs]
    exact curr c current
  · rw [received_recvCtr (mem_circs_of_getLeg found), recvCtr_of_getLeg ep found, moved]

theorem RelayEffect.takes (effect : RelayEffect p side mayLaunch budget ep circ m ep')
    (nodup : ep.used.Nodup) (curr : ∀ c, ep.cfx.currLeg = some c → c ∈ ep.cfx.circs)
    (inSet : m.command.shouldMultiplex = true → circ ∉ ep.pending) :
    ep.Takes ep' circ (Cell.relay m).token := by
  have token (multiplexed : m.command.shouldMultiplex = true) :
      (Cell.relay m).token = .item m := by simp [Cell.token, multiplexed]
  cases effect with
  | bypass outside =>
      cases multiplexed : m.command.shouldMultiplex with
      | false =>
          have other : (Cell.relay m).token = .other := by simp [Cell.token, multiplexed]
          rw [other]
          refine Endpoint.SameShape.takes ⟨rfl, rfl, rfl, rfl⟩ nodup curr rfl ?_
          exact (Function.update_eq_self _ _).symm
      | true =>
          have notLeg : circ ∉ ep.cfx.circs := outside.resolve_right (by simp [multiplexed])
          refine (Endpoint.Shrinks.refl nodup).takes curr ?_
          rintro ⟨_, mem | mem⟩
          · exact notLeg mem
          · exact inSet multiplexed mem
  | @inOrder leg cfx q cost msgs multiplexed found next eq _ _ _ =>
      rw [token multiplexed]
      subst eq
      have takes : ep.Takes (ep.received circ (leg.lastSeqRecv + 1)) circ (.item m) :=
        received_takes nodup curr found rfl
      exact { takes with }
  | queued multiplexed found _ _ _ =>
      rw [token multiplexed]
      exact { received_takes (t := .item m) nodup curr found rfl with }
  | full multiplexed found =>
      rw [token multiplexed]
      have takes := received_takes (t := .item m) nodup curr found rfl
      exact takes.shrinks (closeCirc_shrinks takes.nodup side mayLaunch circ _)
  | stale multiplexed found _ =>
      rw [token multiplexed]
      have takes := received_takes (t := .item m) nodup curr found rfl
      exact takes.shrinks (closeCirc_shrinks takes.nodup side mayLaunch circ _)

end RelayEffect

theorem recvRelay_effect (p : Params) (side : Side) (mayLaunch : Bool) (budget : Option Nat)
    (ep : Endpoint) (circ : CircId) (m : RelayMsg) :
    RelayEffect p side mayLaunch budget ep circ m (recvRelay p side mayLaunch budget ep circ m) := by
  unfold recvRelay
  split
  · rename_i outside
    rw [Bool.or_eq_true, Option.isNone_iff_eq_none] at outside
    refine .bypass (outside.imp (fun missing mem => ?_) fun plain => by simpa using plain)
    rw [← getLeg_isSome, missing] at mem
    cases mem
  · rename_i inside
    simp only [Bool.or_eq_true, Bool.not_eq_true', not_or, Bool.not_eq_false,
      Option.isNone_iff_eq_none] at inside
    obtain ⟨leg, found⟩ := Option.ne_none_iff_exists'.mp inside.1
    have multiplexed := inside.2
    by_cases old : leg.lastSeqRecv + 1 ≤ ep.cfx.lastSeqDelivered
    · have closes : processRelayMsg p ep.cfx circ m =
          ((ep.received circ (leg.lastSeqRecv + 1)).cfx, .close .seqNotNew) := by
        simp only [processRelayMsg, found]
        rw [if_neg (by omega), if_pos old]
        rfl
      rw [closes]
      exact .stale multiplexed found old
    · obtain ⟨base, rfl, ⟨next, eq⟩ | ⟨notNext, eq⟩ | ⟨q, cost, contents, ordered, notNext, eq⟩⟩ :=
        processRelayMsg_cases (p := p) found m (by omega)
      · rw [eq]
        dsimp only
        obtain ⟨q, cost, loop, contents, ordered, stuck⟩ := dequeueLoop_spec (p := p)
          (budget.getD ep.cfx.oooQ.length)
          { (ep.received circ (leg.lastSeqRecv + 1)).cfx with
            lastSeqDelivered := ep.cfx.lastSeqDelivered + 1 }
        exact .inOrder multiplexed found next loop contents ordered fun all => stuck (by subst all; exact le_rfl)
      · rw [eq]
        exact .full multiplexed found (by omega)
      · rw [eq]
        exact .queued multiplexed found (by omega) contents ordered

section RecvCell
variable {p : Params} {side : Side} {mayLaunch : Bool} {now : Nat} {budget : Option Nat}
  {ep : Endpoint} {circ : CircId} (nodup : ep.used.Nodup)
  (curr : ∀ c, ep.cfx.currLeg = some c → c ∈ ep.cfx.circs)
include nodup curr

theorem closeCirc_takes (why : CloseReason) {t : Token RelayMsg} :
    ep.Takes (ep.closeCirc side mayLaunch circ why) circ t :=
  (closeCirc_shrinks nodup side mayLaunch circ why).takes curr
    (closeCirc_not_listens nodup side mayLaunch circ why)

theorem recvSwitch_takes (relativeSeq : Nat) :
    ep.Takes (recvSwitch side mayLaunch ep circ relativeSeq) circ (.jump relativeSeq) := by
  unfold recvSwitch
  split
  · rename_i isLeg
    obtain ⟨leg, found⟩ := Option.isSome_iff_exists.mp isLeg
    have eq : processSwitchCommand ep.cfx circ relativeSeq =
        (ep.received circ (leg.lastSeqRecv + relativeSeq)).cfx :=
      modifyLeg_congr (Endpoint.circs_nodup nodup) found rfl
    rw [eq]
    exact received_takes nodup curr found rfl
  · exact closeCirc_takes nodup curr _

theorem processLinkedAck_takes :
    ep.Takes (processLinkedAck side mayLaunch now ep circ) circ .other := by
  unfold processLinkedAck
  split
  · exact closeCirc_takes nodup curr _
  · split
    · have circs : (ep.cfx.modifyLeg circ (recordRttExit now)).circs = ep.cfx.circs :=
        circs_modifyLeg fun _ => by rfl
      have ctr := ctr_modifyLeg_eq ep circ (f := recordRttExit now) (fun _ => rfl)
        (fun _ => rfl) fun _ => rfl
      refine Endpoint.SameShape.takes ⟨circs, rfl, rfl, rfl⟩ nodup (fun c current => ?_) ctr.1 ?_
      · rw [circs]
        exact curr c current
      · rw [ctr.2]
        exact (Function.update_eq_self _ _).symm
    · exact closeCirc_takes nodup curr _

variable (p side circ) in
theorem recvCell_takes (cell : Cell) (notLink : ∀ l, cell = .link l → side = .client)
    (notLinked : ∀ l, cell = .linked l → side = .exit ∨ circ ∉ ep.pending)
    (inSet : ∀ m, cell = .relay m → m.command.shouldMultiplex = true → circ ∉ ep.pending) :
    ep.Takes (recvCell p side mayLaunch now budget ep circ cell).1 circ cell.token ∧
      (recvCell p side mayLaunch now budget ep circ cell).2 = [] := by
  cases cell with
  | relay m =>
      exact ⟨(recvRelay_effect p side mayLaunch budget ep circ m).takes nodup curr (inSet m rfl), rfl⟩
  | switch relativeSeq => exact ⟨recvSwitch_takes nodup curr relativeSeq, rfl⟩
  | link l =>
      simp only [recvCell, processLink, notLink l rfl, if_true]
      exact ⟨closeCirc_takes nodup curr _, trivial⟩
  | linked l =>
      rcases notLinked l rfl with exit | notPending
      · simp only [recvCell, processLinked, exit, if_true]
        exact ⟨closeCirc_takes nodup curr _, trivial⟩
      · have none : ep.getPending circ = none := by
          rw [← Option.not_isSome_iff_eq_none, Endpoint.getPending_isSome]
          exact notPending
        simp only [recvCell, processLinked, none]
        split <;> exact ⟨closeCirc_takes nodup curr _, rfl⟩
  | linkedAck => exact ⟨processLinkedAck_takes nodup curr, rfl⟩

end RecvCell
end TorJet
