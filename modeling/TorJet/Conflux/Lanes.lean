import TorJet.Base.Resequence
import TorJet.Conflux.System

/-!
# The circuits of a set as lanes

What an endpoint contributes to the numbering on a circuit: the counter it sends with, the counter
it receives with, and the circuits on which each is still in force.
-/

namespace TorJet
open Smartlist Base

def Cell.token : Cell → Token RelayMsg
  | .relay m => if m.command.shouldMultiplex then .item m else .other
  | .switch relativeSeq => .jump relativeSeq
  | .linked l => .reset l.lastSeqnoSent
  | .link _ | .linkedAck => .other

namespace Endpoint
variable (ep : Endpoint) (circ : CircId)

def getRetired : Option ConfluxLeg := ep.retired.find? (·.circ = circ)

def sentCtr : Nat := (((ep.cfx.getLeg circ).or (ep.getRetired circ)).map (·.lastSeqSent)).getD 0

def recvCtr : Nat :=
  ((ep.cfx.getLeg circ).map (·.lastSeqRecv)).getD
    (((ep.getPending circ).map (·.link.lastSeqnoSent)).getD 0)

def Known : Prop := circ ∈ ep.cfx.circs ∨ circ ∈ ep.retired.map (·.circ)

def Listens : Prop := ep.closed = false ∧ (circ ∈ ep.cfx.circs ∨ circ ∈ ep.pending)

end Endpoint

theorem advance_quiet (r : Nat) {cells : List Cell} (quiet : ∀ cell ∈ cells, cell.token = .other) :
    advance r (cells.map Cell.token) = r := by
  induction cells with
  | nil => rfl
  | cons cell cells ih =>
      rw [List.map_cons, quiet cell List.mem_cons_self]
      exact ih fun c mem => quiet c (List.mem_cons_of_mem _ mem)

theorem pop_subset {chan : CircId → List Cell} {circ : CircId} {cell : Cell} {rest : List Cell}
    (head : chan circ = cell :: rest) (c : CircId) : Function.update chan circ rest c ⊆ chan c := by
  by_cases same : c = circ
  · subst same
    rw [Function.update_self, head]
    exact List.subset_cons_self _ _
  · rw [Function.update_of_ne same]
    exact List.Subset.refl _

def Synced (snd rcv : Endpoint) (chan : CircId → List Cell) : Prop :=
  ∀ circ, snd.Known circ → rcv.Listens circ →
    advance (rcv.recvCtr circ) ((chan circ).map Cell.token) = snd.sentCtr circ

namespace Synced
variable {snd snd' rcv rcv' : Endpoint} {chan : CircId → List Cell} {circ : CircId}

theorem mono (h : Synced snd rcv chan)
    (known : ∀ c, snd'.Known c → snd.Known c ∧ snd'.sentCtr c = snd.sentCtr c)
    (listens : ∀ c, rcv'.Listens c → rcv.Listens c ∧ rcv'.recvCtr c = rcv.recvCtr c) :
    Synced snd' rcv' chan := by
  intro c isKnown listening
  obtain ⟨wasKnown, sent⟩ := known c isKnown
  obtain ⟨listened, recv⟩ := listens c listening
  rw [sent, recv]
  exact h c wasKnown listened

theorem push (h : Synced snd rcv chan) {cells : List Cell}
    (known : ∀ c, snd'.Known c → snd.Known c)
    (other : ∀ c, c ≠ circ → snd'.sentCtr c = snd.sentCtr c)
    (here : snd'.sentCtr circ = advance (snd.sentCtr circ) (cells.map Cell.token)) :
    Synced snd' rcv (Function.update chan circ (chan circ ++ cells)) := by
  intro c isKnown listening
  by_cases same : c = circ
  · subst same
    rw [Function.update_self, List.map_append, advance_append, h c (known c isKnown) listening, here]
  · rw [Function.update_of_ne same, other c same]
    exact h c (known c isKnown) listening

theorem pop (h : Synced snd rcv chan) {cell : Cell} {rest : List Cell}
    (head : chan circ = cell :: rest) (listens : ∀ c, rcv'.Listens c → rcv.Listens c)
    (other : ∀ c, c ≠ circ → rcv'.Listens c → rcv'.recvCtr c = rcv.recvCtr c)
    (here : rcv'.Listens circ → rcv'.recvCtr circ = advance (rcv.recvCtr circ) [cell.token]) :
    Synced snd rcv' (Function.update chan circ rest) := by
  intro c isKnown listening
  by_cases same : c = circ
  · subst same
    have before := h c isKnown (listens c listening)
    rw [head, List.map_cons, show cell.token :: rest.map Cell.token =
      [cell.token] ++ rest.map Cell.token from rfl, advance_append] at before
    rw [Function.update_self, here listening, before]
  · rw [Function.update_of_ne same, other c same listening]
    exact h c isKnown (listens c listening)

theorem push_other (h : Synced snd rcv chan) {cells : List Cell}
    (silent : ∀ cell ∈ cells, cell.token = .other) :
    Synced snd rcv (Function.update chan circ (chan circ ++ cells)) :=
  h.push (fun _ k => k) (fun _ _ => rfl) (advance_quiet _ silent).symm

end Synced

structure Endpoint.SameShape (ep ep' : Endpoint) : Prop where
  circs : ep'.cfx.circs = ep.cfx.circs
  unlinked : ep'.unlinked = ep.unlinked
  retired : ep'.retired = ep.retired
  closed : ep'.closed = ep.closed

namespace Endpoint.SameShape
variable {ep ep' : Endpoint} (shape : ep.SameShape ep')
include shape

theorem used : ep'.used = ep.used := by
  simp only [Endpoint.used, pending, shape.circs, shape.unlinked, shape.retired]

theorem known (c : CircId) : ep'.Known c ↔ ep.Known c := by
  simp only [Known, shape.circs, shape.retired]

theorem listens (c : CircId) : ep'.Listens c ↔ ep.Listens c := by
  simp only [Listens, pending, shape.circs, shape.unlinked, shape.closed]

end Endpoint.SameShape

theorem sentCtr_congr {ep ep' : Endpoint} (legs : ep'.cfx.legs = ep.cfx.legs)
    (retired : ep'.retired = ep.retired) : ep'.sentCtr = ep.sentCtr := by
  funext c
  simp only [Endpoint.sentCtr, Conflux.getLeg, Endpoint.getRetired, legs, retired]

theorem recvCtr_congr {ep ep' : Endpoint} (legs : ep'.cfx.legs = ep.cfx.legs)
    (unlinked : ep'.unlinked = ep.unlinked) : ep'.recvCtr = ep.recvCtr := by
  funext c
  simp only [Endpoint.recvCtr, Conflux.getLeg, Endpoint.getPending, legs, unlinked]

/-! ## Counters under an update of one leg -/

section Modify
variable (ep : Endpoint) {circ : CircId} {leg : ConfluxLeg} {f : ConfluxLeg → ConfluxLeg}

theorem sentCtr_of_getLeg (found : ep.cfx.getLeg circ = some leg) :
    ep.sentCtr circ = leg.lastSeqSent := by simp [Endpoint.sentCtr, found]

theorem recvCtr_of_getLeg (found : ep.cfx.getLeg circ = some leg) :
    ep.recvCtr circ = leg.lastSeqRecv := by simp [Endpoint.recvCtr, found]

theorem sentCtr_modifyLeg (keeps : ∀ l, (f l).circ = l.circ) (found : ep.cfx.getLeg circ = some leg) :
    { ep with cfx := ep.cfx.modifyLeg circ f }.sentCtr =
      Function.update ep.sentCtr circ (f leg).lastSeqSent := by
  funext c
  by_cases same : c = circ
  · subst same
    simp [Endpoint.sentCtr, getLeg_modifyLeg keeps, found]
  · simp [Endpoint.sentCtr, getLeg_modifyLeg keeps, same, Endpoint.getRetired]

theorem recvCtr_modifyLeg (keeps : ∀ l, (f l).circ = l.circ) (found : ep.cfx.getLeg circ = some leg) :
    { ep with cfx := ep.cfx.modifyLeg circ f }.recvCtr =
      Function.update ep.recvCtr circ (f leg).lastSeqRecv := by
  funext c
  by_cases same : c = circ
  · subst same
    simp [Endpoint.recvCtr, getLeg_modifyLeg keeps, found]
  · simp [Endpoint.recvCtr, getLeg_modifyLeg keeps, same, Endpoint.getPending]

variable (circ) in
theorem ctr_modifyLeg_eq (keeps : ∀ l, (f l).circ = l.circ)
    (sent : ∀ l, (f l).lastSeqSent = l.lastSeqSent) (recv : ∀ l, (f l).lastSeqRecv = l.lastSeqRecv) :
    { ep with cfx := ep.cfx.modifyLeg circ f }.sentCtr = ep.sentCtr ∧
      { ep with cfx := ep.cfx.modifyLeg circ f }.recvCtr = ep.recvCtr := by
  cases found : ep.cfx.getLeg circ with
  | some leg =>
      rw [sentCtr_modifyLeg ep keeps found, recvCtr_modifyLeg ep keeps found, sent, recv,
        ← sentCtr_of_getLeg ep found, ← recvCtr_of_getLeg ep found]
      exact ⟨Function.update_eq_self _ _, Function.update_eq_self _ _⟩
  | none =>
      have same (c : CircId) : (ep.cfx.modifyLeg circ f).getLeg c = ep.cfx.getLeg c := by
        rw [getLeg_modifyLeg keeps]
        split
        · rename_i here
          rw [here, found]
          rfl
        · rfl
      exact ⟨funext fun c => by simp [Endpoint.sentCtr, same, Endpoint.getRetired],
        funext fun c => by simp [Endpoint.recvCtr, same, Endpoint.getPending]⟩

end Modify

/-! ## Counters when a circuit is closed -/

section Close
variable {ep : Endpoint} {circ : CircId} {leg : ConfluxLeg}

theorem Endpoint.circs_nodup (nodup : ep.used.Nodup) : ep.cfx.circs.Nodup :=
  (List.nodup_append.mp (List.nodup_append.mp nodup).1).1

theorem Endpoint.pending_nodup (nodup : ep.used.Nodup) : ep.pending.Nodup :=
  (List.nodup_append.mp (List.nodup_append.mp nodup).1).2.1

theorem Endpoint.notMem_pending (nodup : ep.used.Nodup) (mem : circ ∈ ep.cfx.circs) :
    circ ∉ ep.pending := fun other =>
  (List.nodup_append.mp (List.nodup_append.mp nodup).1).2.2 circ mem circ other rfl

theorem Endpoint.notMem_retired (nodup : ep.used.Nodup) (mem : circ ∈ ep.cfx.circs ∨ circ ∈ ep.pending) :
    circ ∉ ep.retired.map (·.circ) := fun other =>
  (List.nodup_append.mp nodup).2.2 circ (List.mem_append.mpr mem) circ other rfl

theorem Endpoint.getPending_isSome : (ep.getPending circ).isSome ↔ circ ∈ ep.pending := by
  simp [getPending, pending]

def Endpoint.retire (ep : Endpoint) (leg : ConfluxLeg) (why : CloseReason) : Endpoint :=
  { ep with
    cfx := (cfxDelLeg (ep.net leg.circ).cc ep.cfx leg.circ).1
    retired := leg :: ep.retired
    closes := (leg.circ, why) :: ep.closes }

def Endpoint.forget (ep : Endpoint) (circ : CircId) (why : CloseReason) : Endpoint :=
  { ep with
    unlinked := remove (fun leg => leg.circ = circ) ep.unlinked
    closes := (circ, why) :: ep.closes }

theorem closeCirc_cases (side : Side) (mayLaunch : Bool) (ep : Endpoint) (circ : CircId)
    (why : CloseReason) :
    (circ ∉ ep.cfx.circs ∧ circ ∉ ep.pending ∧ ep.closeCirc side mayLaunch circ why = ep) ∨
    ((circ ∈ ep.cfx.circs ∨ circ ∈ ep.pending) ∧
      ep.closeCirc side mayLaunch circ why = ep.teardown circ why) ∨
    (circ ∈ ep.pending ∧ ep.closeCirc side mayLaunch circ why = ep.forget circ why) ∨
    ∃ leg, ep.cfx.getLeg circ = some leg ∧
      ((cfxDelLeg (ep.net circ).cc ep.cfx circ).2 = false ∨
        (cfxDelLeg (ep.net circ).cc ep.cfx circ).1.legs = [] ∧ ep.unlinked = [] ∧
          side = .client ∧ mayLaunch = true) ∧
      ep.closeCirc side mayLaunch circ why = ep.retire leg why := by
  unfold Endpoint.closeCirc
  split
  · rename_i isPending
    rw [Endpoint.getPending_isSome] at isPending
    unfold Endpoint.unlinkedCircuitClosed
    dsimp only
    split
    · exact .inr (.inl ⟨.inr isPending, rfl⟩)
    · exact .inr (.inr (.inl ⟨isPending, rfl⟩))
  · rename_i notPending
    rw [Endpoint.getPending_isSome] at notPending
    split
    · rename_i notLeg
      refine .inl ⟨fun mem => ?_, notPending, rfl⟩
      rw [← getLeg_isSome, notLeg] at mem
      cases mem
    · rename_i leg found
      have isCirc : leg.circ = circ := getLeg_circ found
      unfold Endpoint.linkedCircuitClosed
      rw [isCirc]
      split
      · rename_i survives
        refine .inr (.inr (.inr ⟨leg, found, ?_, by simp only [Endpoint.retire, isCirc]⟩))
        unfold Endpoint.survivesClose at survives
        dsimp only at survives
        split at survives
        · rename_i empty
          simp only [Bool.and_eq_true, List.isEmpty_iff] at empty
          simp only [Bool.and_eq_true, decide_eq_true_eq] at survives
          exact .inr ⟨empty.1, empty.2, survives⟩
        · simp only [Bool.not_eq_true'] at survives
          exact .inl survives
      · exact .inr (.inl ⟨.inl (mem_circs_of_getLeg found), rfl⟩)

theorem cfxDelLeg_legs (cc : CongestionControl) (cfx : Conflux) (circ : CircId) :
    (cfxDelLeg cc cfx circ).1.legs = remove (fun leg => leg.circ = circ) cfx.legs := by
  unfold cfxDelLeg
  split
  · rename_i missing
    exact (remove_eq_self missing).symm
  · rfl

theorem getLeg_cfxDelLeg {cc : CongestionControl} {cfx : Conflux} (nodup : cfx.circs.Nodup)
    (found : cfx.getLeg circ = some leg) (c : CircId) :
    (cfxDelLeg cc cfx circ).1.getLeg c = if c = circ then none else cfx.getLeg c := by
  rw [Conflux.getLeg, cfxDelLeg_legs]
  exact find?_remove nodup found c

theorem circs_cfxDelLeg (cc : CongestionControl) {cfx : Conflux}
    (found : cfx.getLeg circ = some leg) :
    (circ :: (cfxDelLeg cc cfx circ).1.circs).Perm cfx.circs := by
  rw [Conflux.circs, cfxDelLeg_legs]
  have perm := (remove_perm found).map (·.circ)
  rwa [List.map_cons, getLeg_circ found] at perm

theorem retire_sentCtr (nodup : ep.used.Nodup) (found : ep.cfx.getLeg circ = some leg)
    (why : CloseReason) : (ep.retire leg why).sentCtr = ep.sentCtr := by
  funext c
  have isCirc := getLeg_circ found
  simp only [Endpoint.sentCtr, Endpoint.retire, Endpoint.getRetired, isCirc,
    getLeg_cfxDelLeg (Endpoint.circs_nodup nodup) found, List.find?_cons]
  by_cases same : c = circ
  · subst same
    simp [found]
  · simp [same, Ne.symm same]

theorem retire_recvCtr (nodup : ep.used.Nodup) (found : ep.cfx.getLeg circ = some leg)
    (why : CloseReason) {c : CircId} (ne : c ≠ circ) : (ep.retire leg why).recvCtr c = ep.recvCtr c := by
  simp only [Endpoint.recvCtr, Endpoint.retire, Endpoint.getPending, getLeg_circ found,
    getLeg_cfxDelLeg (Endpoint.circs_nodup nodup) found, if_neg ne]

theorem retire_circs (found : ep.cfx.getLeg circ = some leg) (why : CloseReason) :
    (circ :: (ep.retire leg why).cfx.circs).Perm ep.cfx.circs := by
  have isCirc := getLeg_circ found
  simp only [Endpoint.retire, isCirc]
  exact circs_cfxDelLeg _ found

theorem retire_used (found : ep.cfx.getLeg circ = some leg) (why : CloseReason) :
    (ep.retire leg why).used.Perm ep.used := by
  have isCirc := getLeg_circ found
  have circs := retire_circs found why
  simp only [Endpoint.used, Endpoint.pending] at circs ⊢
  have move : ((ep.retire leg why).cfx.circs ++ ep.unlinked.map (·.circ) ++
      circ :: ep.retired.map (·.circ)).Perm
      (circ :: (ep.retire leg why).cfx.circs ++ ep.unlinked.map (·.circ) ++
        ep.retired.map (·.circ)) := List.perm_middle
  have lift := (circs.append_right (ep.unlinked.map (·.circ))).append_right (ep.retired.map (·.circ))
  simpa [Endpoint.retire, isCirc] using move.trans lift

theorem retire_known (found : ep.cfx.getLeg circ = some leg) (why : CloseReason) (c : CircId) :
    (ep.retire leg why).Known c ↔ ep.Known c := by
  have mem := (retire_circs found why).mem_iff (a := c)
  have isCirc := getLeg_circ found
  rw [List.mem_cons] at mem
  simp only [Endpoint.Known, ← mem]
  simp only [Endpoint.retire, List.map_cons, List.mem_cons, isCirc]
  tauto

theorem retire_currLeg (found : ep.cfx.getLeg circ = some leg) (why : CloseReason) {c : CircId}
    (current : (ep.retire leg why).cfx.currLeg = some c) : ep.cfx.currLeg = some c ∧ c ≠ circ := by
  have isCirc := getLeg_circ found
  simp only [Endpoint.retire, cfxDelLeg, isCirc, found] at current
  split at current
  · cases current
  · rename_i other
    refine ⟨current, ?_⟩
    rintro rfl
    exact other current

theorem forget_unlinked (isPending : circ ∈ ep.pending) (why : CloseReason) :
    ∃ leg : PendingLeg, leg.circ = circ ∧ (leg :: (ep.forget circ why).unlinked).Perm ep.unlinked := by
  obtain ⟨leg, found⟩ := Option.isSome_iff_exists.mp (Endpoint.getPending_isSome.mpr isPending)
  exact ⟨leg, by simpa using List.find?_some found, remove_perm found⟩

theorem forget_getPending (nodup : ep.used.Nodup) (isPending : circ ∈ ep.pending) (why : CloseReason)
    (c : CircId) : (ep.forget circ why).getPending c = if c = circ then none else ep.getPending c := by
  obtain ⟨leg, found⟩ := Option.isSome_iff_exists.mp (Endpoint.getPending_isSome.mpr isPending)
  exact find?_remove (Endpoint.pending_nodup nodup) found c

theorem recvCtr_of_pending {leg : PendingLeg} (nodup : ep.used.Nodup) (mem : leg ∈ ep.unlinked) :
    ep.recvCtr leg.circ = leg.link.lastSeqnoSent := by
  have isPending : leg.circ ∈ ep.pending := List.mem_map_of_mem mem
  have found : ep.getPending leg.circ = some leg :=
    (find?_key_iff (Endpoint.pending_nodup nodup)).mpr ⟨mem, rfl⟩
  have notLeg : ep.cfx.getLeg leg.circ = none :=
    getLeg_eq_none fun isLeg => Endpoint.notMem_pending nodup isLeg isPending
  simp [Endpoint.recvCtr, notLeg, found]

/-- The endpoint with its unlinked leg on `circ` changed. -/
def Endpoint.modifyPending (ep : Endpoint) (circ : CircId) (f : PendingLeg → PendingLeg) : Endpoint :=
  { ep with unlinked := ep.unlinked.map fun l => if l.circ = circ then f l else l }

section ModifyPending
variable {f : PendingLeg → PendingLeg} (keeps : ∀ l, l.circ = circ → (f l).circ = circ)
include keeps

theorem modifyPending_pending (ep : Endpoint) : (ep.modifyPending circ f).pending = ep.pending :=
  map_key_update keeps ep.unlinked

theorem modifyPending_getPending (ep : Endpoint) (c : CircId) :
    (ep.modifyPending circ f).getPending c =
      if c = circ then (ep.getPending c).map f else ep.getPending c :=
  find?_update keeps ep.unlinked c

theorem modifyPending_used (ep : Endpoint) : (ep.modifyPending circ f).used = ep.used := by
  rw [Endpoint.used, modifyPending_pending keeps]
  rfl

theorem modifyPending_listens (ep : Endpoint) (c : CircId) :
    (ep.modifyPending circ f).Listens c ↔ ep.Listens c := by
  rw [Endpoint.Listens, modifyPending_pending keeps]
  rfl

theorem modifyPending_recvCtr {leg : PendingLeg} (nodup : ep.used.Nodup) (mem : leg ∈ ep.unlinked)
    (isCirc : leg.circ = circ) : (ep.modifyPending circ f).recvCtr =
      Function.update ep.recvCtr circ (f leg).link.lastSeqnoSent := by
  have found : ep.getPending circ = some leg :=
    (find?_key_iff (Endpoint.pending_nodup nodup)).mpr ⟨mem, isCirc⟩
  have notLeg : ep.cfx.getLeg circ = none := getLeg_eq_none fun isLeg =>
    Endpoint.notMem_pending nodup isLeg (isCirc ▸ List.mem_map_of_mem mem)
  funext c
  by_cases same : c = circ
  · subst same
    simp only [Endpoint.recvCtr, modifyPending_getPending keeps, found, Function.update_self]
    simp [Endpoint.modifyPending, notLeg]
  · simp only [Endpoint.recvCtr, modifyPending_getPending keeps, if_neg same,
      Function.update_of_ne same]
    rfl

end ModifyPending

theorem mem_modifyPending {f : PendingLeg → PendingLeg} {leg x : PendingLeg} (nodup : ep.used.Nodup)
    (mem : leg ∈ ep.unlinked) (isPending : x ∈ (ep.modifyPending leg.circ f).unlinked) :
    (x ∈ ep.unlinked ∧ x.circ ≠ leg.circ) ∨ x = f leg := by
  obtain ⟨old, oldMem, rfl⟩ := List.mem_map.mp isPending
  split
  · rename_i same
    have unique : old = leg :=
      List.inj_on_of_nodup_map (Endpoint.pending_nodup nodup) oldMem mem same
    exact .inr (by rw [unique])
  · rename_i other
    exact .inl ⟨oldMem, other⟩

structure Endpoint.Shrinks (ep ep' : Endpoint) : Prop where
  nodup : ep'.used.Nodup
  used : ∀ c ∈ ep'.used, c ∈ ep.used
  known : ∀ c, ep'.Known c ↔ ep.Known c
  sentCtr : ep'.sentCtr = ep.sentCtr
  circs : ∀ c ∈ ep'.cfx.circs, c ∈ ep.cfx.circs ∧ ep'.recvCtr c = ep.recvCtr c
  unlinked : ∀ leg ∈ ep'.unlinked, leg ∈ ep.unlinked
  listens : ∀ c, ep'.Listens c → ep.Listens c ∧ ep'.recvCtr c = ep.recvCtr c
  curr : (∀ c, ep.cfx.currLeg = some c → c ∈ ep.cfx.circs) →
    ∀ c, ep'.cfx.currLeg = some c → c ∈ ep'.cfx.circs

theorem Endpoint.Shrinks.refl (nodup : ep.used.Nodup) : ep.Shrinks ep where
  nodup := nodup
  used _ mem := mem
  known _ := Iff.rfl
  sentCtr := rfl
  circs _ mem := ⟨mem, rfl⟩
  unlinked _ mem := mem
  listens _ listening := ⟨listening, rfl⟩
  curr h := h

theorem teardown_shrinks (nodup : ep.used.Nodup) (circ : CircId) (why : CloseReason) :
    ep.Shrinks (ep.teardown circ why) where
  nodup := nodup
  used _ mem := mem
  known _ := Iff.rfl
  sentCtr := rfl
  circs _ mem := ⟨mem, rfl⟩
  unlinked _ mem := mem
  listens _ listening := by cases listening.1
  curr h := h

theorem forget_shrinks (nodup : ep.used.Nodup) (isPending : circ ∈ ep.pending) (why : CloseReason) :
    ep.Shrinks (ep.forget circ why) := by
  obtain ⟨leg, isCirc, perm⟩ := forget_unlinked isPending why
  have sub : ∀ l ∈ (ep.forget circ why).unlinked, l ∈ ep.unlinked := fun l mem =>
    perm.subset (List.mem_cons_of_mem _ mem)
  have pendingPerm : (circ :: (ep.forget circ why).pending).Perm ep.pending := by
    have mapped := perm.map (·.circ)
    rwa [List.map_cons, isCirc] at mapped
  have usedPerm : (circ :: (ep.forget circ why).used).Perm ep.used := by
    have lift := (pendingPerm.append_left ep.cfx.circs).append_right (ep.retired.map (·.circ))
    have front : (circ :: (ep.forget circ why).used).Perm
        (ep.cfx.circs ++ (circ :: (ep.forget circ why).pending) ++ ep.retired.map (·.circ)) := by
      simp only [Endpoint.used]
      exact (List.perm_middle.append_right (ep.retired.map (·.circ))).symm
    exact front.trans lift
  have nodup' := usedPerm.nodup_iff.mpr nodup
  rw [List.nodup_cons] at nodup'
  have keep : ∀ c, c ≠ circ → (ep.forget circ why).recvCtr c = ep.recvCtr c := fun c ne => by
    simp only [Endpoint.recvCtr, forget_getPending nodup isPending, if_neg ne]
    rfl
  have gone : ∀ c ∈ (ep.forget circ why).used, c ≠ circ := fun c mem eq => nodup'.1 (eq ▸ mem)
  exact
    { nodup := nodup'.2
      used := fun c mem => usedPerm.subset (List.mem_cons_of_mem _ mem)
      known := fun _ => Iff.rfl
      sentCtr := rfl
      circs := fun c mem => ⟨mem, keep c (gone c (by simp [Endpoint.used, mem]))⟩
      unlinked := sub
      listens := fun c listens => by
        obtain ⟨opened, mem⟩ := listens
        refine ⟨⟨opened, mem.imp_right fun isPend => ?_⟩, keep c (gone c ?_)⟩
        · exact pendingPerm.subset (List.mem_cons_of_mem _ isPend)
        · exact List.mem_append.mpr (.inl (List.mem_append.mpr mem))
      curr := id }

theorem retire_shrinks (nodup : ep.used.Nodup) (found : ep.cfx.getLeg circ = some leg)
    (why : CloseReason) : ep.Shrinks (ep.retire leg why) := by
  have circs := retire_circs found why
  have nodupCircs := circs.nodup_iff.mpr (Endpoint.circs_nodup nodup)
  rw [List.nodup_cons] at nodupCircs
  have keep : ∀ c, c ≠ circ → (ep.retire leg why).recvCtr c = ep.recvCtr c :=
    fun c ne => retire_recvCtr nodup found why ne
  have gone : ∀ c ∈ (ep.retire leg why).cfx.circs, c ≠ circ := fun c mem eq =>
    nodupCircs.1 (eq ▸ mem)
  exact
    { nodup := (retire_used found why).nodup_iff.mpr nodup
      used := fun c mem => (retire_used found why).subset mem
      known := retire_known found why
      sentCtr := retire_sentCtr nodup found why
      circs := fun c mem => ⟨circs.subset (List.mem_cons_of_mem _ mem), keep c (gone c mem)⟩
      unlinked := fun _ mem => mem
      listens := fun c listens => by
        obtain ⟨opened, mem⟩ := listens
        rcases mem with mem | isPend
        · exact ⟨⟨opened, .inl (circs.subset (List.mem_cons_of_mem _ mem))⟩, keep c (gone c mem)⟩
        · have ne : c ≠ circ := by
            rintro rfl
            exact Endpoint.notMem_pending nodup (mem_circs_of_getLeg found) isPend
          exact ⟨⟨opened, .inr isPend⟩, keep c ne⟩
      curr := fun before c current => by
        obtain ⟨same, ne⟩ := retire_currLeg found why current
        rcases List.mem_cons.mp (circs.symm.subset (before c same)) with eq | mem
        · exact absurd eq ne
        · exact mem }

theorem closeCirc_shrinks (nodup : ep.used.Nodup) (side : Side) (mayLaunch : Bool) (circ : CircId)
    (why : CloseReason) : ep.Shrinks (ep.closeCirc side mayLaunch circ why) := by
  rcases closeCirc_cases side mayLaunch ep circ why with
    ⟨_, _, eq⟩ | ⟨_, eq⟩ | ⟨isPending, eq⟩ | ⟨leg, found, _, eq⟩
  · rw [eq]; exact .refl nodup
  · rw [eq]; exact teardown_shrinks nodup circ why
  · rw [eq]; exact forget_shrinks nodup isPending why
  · rw [eq]; exact retire_shrinks nodup found why

theorem closeCirc_not_listens (nodup : ep.used.Nodup) (side : Side) (mayLaunch : Bool) (circ : CircId)
    (why : CloseReason) : ¬ (ep.closeCirc side mayLaunch circ why).Listens circ := by
  rcases closeCirc_cases side mayLaunch ep circ why with
    ⟨notLeg, notPending, eq⟩ | ⟨_, eq⟩ | ⟨isPending, eq⟩ | ⟨leg, found, _, eq⟩
  · rw [eq]
    rintro ⟨_, mem | mem⟩
    · exact notLeg mem
    · exact notPending mem
  · rw [eq]
    exact fun listening => by cases listening.1
  · rw [eq]
    rintro ⟨_, mem | mem⟩
    · exact Endpoint.notMem_pending nodup mem isPending
    · rw [← Endpoint.getPending_isSome, forget_getPending nodup isPending, if_pos rfl] at mem
      cases mem
  · rw [eq]
    have circs := retire_circs found why
    have nodupCircs := circs.nodup_iff.mpr (Endpoint.circs_nodup nodup)
    rintro ⟨_, mem | mem⟩
    · exact (List.nodup_cons.mp nodupCircs).1 mem
    · exact Endpoint.notMem_pending nodup (mem_circs_of_getLeg found) mem

end Close

/-! ## A set that is linked on both ends -/

namespace World

structure LinkedStart (w : World) : Prop where
  opened : ∀ s, (w.ep s).closed = false
  unlinked : ∀ s, (w.ep s).unlinked = []
  queue : ∀ s, (w.ep s).cfx.oooQ = []
  fresh : ∀ s, (w.ep s).sent = [] ∧ (w.ep s).released = [] ∧ (w.ep s).retired = [] ∧
    (w.ep s).closes = []
  nodup : ∀ s, (w.ep s).cfx.circs.Nodup
  circs : ∀ s, ∀ c ∈ (w.ep s).cfx.circs, c ∈ (w.ep s.peer).cfx.circs
  empty : ∀ s c, w.chan s c = []
  legs : ∀ s, ∀ c ∈ (w.ep s).cfx.circs, (w.ep s).sentCtr c = (w.ep s.peer).recvCtr c
  bound : ∀ s, ∀ c ∈ (w.ep s).cfx.circs, (w.ep s).sentCtr c ≤ (w.ep s.peer).cfx.lastSeqDelivered
  current : ∀ s c, (w.ep s).cfx.currLeg = some c →
    c ∈ (w.ep s).cfx.circs ∧ (w.ep s).sentCtr c = (w.ep s.peer).cfx.lastSeqDelivered
  idle : ∀ s, (w.ep s).cfx.currLeg = none →
    ∀ c ∈ (w.ep s).cfx.circs, (w.ep s).sentCtr c = (w.ep s.peer).cfx.lastSeqDelivered

def idleCirc : CircState where
  cc := { cwnd := 124, inflight := 0, sendmeInc := 31, inSlowStart := true }
  blocked := false

variable (nonce : Nonce) (circs : List CircId)

def linkedAnew : World where
  ep _ :=
    { cfx := { Conflux.new nonce with
        legs := circs.map fun circ =>
          { circ := circ, lastSeqRecv := 0, lastSeqSent := 0, circRttsUsec := 1, linkedSentUsec := 1 } }
      unlinked := []
      net := fun _ => idleCirc
      closed := false
      sent := []
      released := []
      retired := []
      closes := [] }
  chan _ _ := []

theorem linkedAnew_linked (nodup : circs.Nodup) : (linkedAnew nonce circs).LinkedStart := by
  have same (s : Side) : ((linkedAnew nonce circs).ep s).cfx.circs = circs := by
    simp [linkedAnew, Conflux.circs, Function.comp_def]
  have counters (s : Side) (c : CircId) (leg : ConfluxLeg)
      (found : ((linkedAnew nonce circs).ep s).cfx.getLeg c = some leg) :
      leg.lastSeqSent = 0 ∧ leg.lastSeqRecv = 0 := by
    obtain ⟨_, _, rfl⟩ := List.mem_map.mp (getLeg_mem found)
    exact ⟨rfl, rfl⟩
  have sent (s : Side) (c : CircId) (mem : c ∈ ((linkedAnew nonce circs).ep s).cfx.circs) :
      ((linkedAnew nonce circs).ep s).sentCtr c = 0 := by
    obtain ⟨leg, found⟩ := exists_getLeg mem
    rw [sentCtr_of_getLeg _ found, (counters s c leg found).1]
  have recv (s : Side) (c : CircId) (mem : c ∈ ((linkedAnew nonce circs).ep s).cfx.circs) :
      ((linkedAnew nonce circs).ep s).recvCtr c = 0 := by
    obtain ⟨leg, found⟩ := exists_getLeg mem
    rw [recvCtr_of_getLeg _ found, (counters s c leg found).2]
  exact
    { opened := fun _ => rfl
      unlinked := fun _ => rfl
      queue := fun _ => rfl
      fresh := fun _ => ⟨rfl, rfl, rfl, rfl⟩
      nodup := fun s => by rw [same]; exact nodup
      circs := fun s c mem => by rwa [same] at mem ⊢
      empty := fun _ _ => rfl
      legs := fun s c mem => by rw [sent s c mem, recv s.peer c (by rwa [same] at mem ⊢)]
      bound := fun s c mem => by rw [sent s c mem]; exact Nat.zero_le _
      current := fun s c current => by cases current
      idle := fun s _ c mem => sent s c mem }

end World
end TorJet
