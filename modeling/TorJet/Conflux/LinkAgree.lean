import TorJet.Conflux.Linking

/-!
# Agreement of the two ends on a leg added later

The counters of a new leg are copied from the LINK at the exit and from the LINKED at the client.
Each cell is a snapshot of one end, so the two ends agree exactly when a LINK finds the exit at the
numbers it announces.
-/

namespace TorJet
open Smartlist Base

namespace World

def Linking (w : World) : Prop :=
  TorJet.Linking (w.ep .client) (w.ep .exit) (w.chan .client) (w.chan .exit)

/-- The leg that `conflux_process_link` builds for a LINK. -/
def linkLeg (circ : CircId) (now : Nat) (l : LinkCell) : PendingLeg :=
  { legNew circ l with linkSentUsec := now, linked := true }

def CellInStep (p : Params) (w : World) (s : Side) (circ : CircId) (now : Nat) : Cell → Prop
  | .link l =>
      let ex := (w.ep .exit).getOrCreate l.nonce
      s = .exit → (tryFinalizeSet p ex.cfx [linkLeg circ now l]).isLinked = true →
        l.lastSeqnoSent = ex.cfx.lastSeqDelivered ∧ l.lastSeqnoRecv = ex.cfx.getMaxSeqSent
  | .relay m => m.command.shouldMultiplex = true → circ ∉ (w.ep s).pending
  | _ => True

def InStep (p : Params) (w : World) : Event → Prop
  | .recv s circ now _ _ => ∀ cell ∈ (w.chan s circ).head?, CellInStep p w s circ now cell
  | _ => True

instance (p : Params) (w : World) (s : Side) (circ : CircId) (now : Nat) (cell : Cell) :
    Decidable (CellInStep p w s circ now cell) :=
  match cell with
  | .link l =>
      inferInstanceAs (Decidable (s = .exit → (tryFinalizeSet p _ [linkLeg circ now l]).isLinked = true →
        _ ∧ _))
  | .relay m => inferInstanceAs (Decidable (m.command.shouldMultiplex = true → _))
  | .switch _ | .linked _ | .linkedAck => inferInstanceAs (Decidable True)

instance (p : Params) (w : World) (e : Event) : Decidable (InStep p w e) :=
  match e with
  | .recv s circ now _ _ =>
      inferInstanceAs (Decidable (∀ cell ∈ (w.chan s circ).head?, CellInStep p w s circ now cell))
  | .send .. | .canSend .. | .tune .. | .updateRtt .. | .close .. | .launch .. | .opened .. =>
      inferInstanceAs (Decidable True)

variable {p : Params} {w w' : World} {circ : CircId}

theorem push_nil (s : Side) (circ : CircId) : w.push s circ [] = w := by
  unfold push
  rw [List.append_nil, Function.update_eq_self, Function.update_eq_self]

theorem Linking.used (h : w.Linking) (s : Side) : (w.ep s).used.Nodup := by
  cases s
  · exact h.clientUsed
  · exact h.exitUsed

theorem Linking.curr (h : w.Linking) (s : Side) :
    ∀ c, (w.ep s).cfx.currLeg = some c → c ∈ (w.ep s).cfx.circs := by
  cases s
  · exact h.clientCurr
  · exact h.exitCurr

theorem Linking.sends (h : w.Linking) {s : Side} {ep : Endpoint} {cells : List Cell}
    (sends : (w.ep s).Sends ep circ cells) : ((w.setEp s ep).push s.peer circ cells).Linking := by
  cases s
  · exact h.clientPush sends
  · exact h.exitPush sends

theorem Linking.shrinks (h : w.Linking) {s : Side} {ep : Endpoint} (shrinks : (w.ep s).Shrinks ep) :
    (w.setEp s ep).Linking := by
  cases s
  · exact h.clientShrinks shrinks
  · exact h.exitShrinks shrinks

theorem Linking.idle (h : w.Linking) {s : Side} {ep : Endpoint} (shape : (w.ep s).SameShape ep)
    (sent : ep.sentCtr = (w.ep s).sentCtr) (recv : ep.recvCtr = (w.ep s).recvCtr)
    (curr : ∀ c, ep.cfx.currLeg = some c → c ∈ ep.cfx.circs) : (w.setEp s ep).Linking := by
  cases s
  · exact h.clientIdle shape sent recv curr
  · exact h.exitIdle shape sent recv curr

theorem Linking.takes (h : w.Linking) {s : Side} {ep : Endpoint} {cell : Cell} {rest : List Cell}
    (head : w.chan s circ = cell :: rest) (takes : (w.ep s).Takes ep circ cell.token) :
    ((w.pop s circ).setEp s ep).Linking := by
  have tail : (w.chan s circ).tail = rest := by rw [head]; rfl
  cases s
  · have popped := h.clientPop head takes
    rw [← tail] at popped
    exact popped
  · have popped := h.exitPop head takes
    rw [← tail] at popped
    exact popped

theorem linking_send {s : Side} {m : RelayMsg} (h : w.Linking)
    (action : step p w (.send s circ m) = some w') : w'.Linking := by
  simp only [step] at action
  split at action
  · cases action
  · rename_i allowed
    simp only [Bool.or_eq_true, decide_eq_true_eq, not_or, not_not] at allowed
    obtain rfl := Option.some.inj action
    have effect := sendMsg_effect (p := p) circ m (Endpoint.circs_nodup (h.used s)) (h.curr s)
    rcases effect.sends (h.used s) (h.curr s) allowed.1.2 with sends | ⟨shrinks, none, -⟩
    · exact h.sends sends
    · rw [none, push_nil]
      exact h.shrinks shrinks

theorem linking_canSend {s : Side} (h : w.Linking) (action : step p w (.canSend s) = some w') :
    w'.Linking := by
  simp only [step] at action
  split at action
  · cases action
  · obtain rfl := Option.some.inj action
    have settled := (decideNextCirc_spec p (w.ep s).net (w.ep s).cfx).1
    exact h.idle ⟨settled.circs, rfl, rfl, rfl⟩ (sentCtr_congr settled.legs rfl)
      (recvCtr_congr settled.legs rfl) fun c current => settled.currLeg_mem (h.curr s) current

theorem linking_tune {s : Side} {state : CircState} (h : w.Linking)
    (action : step p w (.tune s circ state) = some w') : w'.Linking := by
  obtain rfl := Option.some.inj action
  exact h.idle ⟨rfl, rfl, rfl, rfl⟩ (sentCtr_congr rfl rfl) (recvCtr_congr rfl rfl) (h.curr s)

theorem linking_updateRtt {s : Side} {rtt : Nat} (h : w.Linking)
    (action : step p w (.updateRtt s circ rtt) = some w') : w'.Linking := by
  simp only [step] at action
  split at action
  · cases action
  · obtain rfl := Option.some.inj action
    have circs : (updateRtt (w.ep s).cfx circ rtt).circs = (w.ep s).cfx.circs :=
      circs_modifyLeg fun _ => by rfl
    obtain ⟨sent, recv⟩ := ctr_modifyLeg_eq (w.ep s) circ
      (f := fun leg => { leg with circRttsUsec := rtt }) (fun _ => rfl) (fun _ => rfl) fun _ => rfl
    refine h.idle ⟨circs, rfl, rfl, rfl⟩ sent recv fun c current => ?_
    rw [circs]
    exact h.curr s c current

theorem linking_close {s : Side} {mayLaunch : Bool} (h : w.Linking)
    (action : step p w (.close s circ mayLaunch) = some w') : w'.Linking := by
  simp only [step] at action
  split at action
  · cases action
  · obtain rfl := Option.some.inj action
    exact h.shrinks (closeCirc_shrinks (h.used s) s mayLaunch circ _)

theorem linking_launch (h : w.Linking) (action : step p w (.launch circ) = some w') : w'.Linking := by
  simp only [step] at action
  split at action
  · cases action
  · rename_i allowed
    simp only [Bool.or_eq_true, Bool.not_eq_true', not_or, Bool.not_eq_false, unused,
      Bool.and_eq_true, decide_eq_true_eq, List.isEmpty_iff] at allowed
    obtain ⟨_, ⟨⟨newClient, newExit⟩, emptyClient⟩, emptyExit⟩ := allowed
    obtain ⟨ep, launched, rfl⟩ := Option.map_eq_some_iff.mp action
    unfold launchLeg at launched
    split at launched
    · cases launched
    · obtain rfl := Option.some.inj launched
      exact Linking.launch h rfl rfl rfl rfl rfl rfl newClient newExit emptyClient emptyExit

theorem linking_opened {now : Nat} (h : w.Linking) (action : step p w (.opened circ now) = some w') :
    w'.Linking := by
  simp only [step] at action
  split at action
  · cases action
  · rename_i leg found
    split at action
    · cases action
    · rename_i allowed
      simp only [Bool.or_eq_true, decide_eq_true_eq, not_or, ne_eq, not_not] at allowed
      obtain rfl := Option.some.inj action
      obtain ⟨mem, rfl⟩ := (find?_key_iff (Endpoint.pending_nodup h.clientUsed)).mp found
      exact Linking.opened h mem allowed.1.2 allowed.2

def handled (w : World) (s : Side) (circ : CircId) (r : Endpoint × List Cell) : World :=
  ((w.pop s circ).setEp s r.1).push s.peer circ r.2

theorem handled_nil (s : Side) (circ : CircId) (ep : Endpoint) :
    w.handled s circ (ep, []) = (w.pop s circ).setEp s ep := push_nil _ _

theorem handled_ep (s : Side) (circ : CircId) (r : Endpoint × List Cell) :
    (w.handled s circ r).ep s = r.1 := Function.update_self _ _ _

theorem handled_setEp (s : Side) (circ : CircId) (r : Endpoint × List Cell) (ep : Endpoint) :
    (w.handled s circ r).setEp s ep = w.handled s circ (ep, r.2) := by
  simp only [handled, setEp, push, Function.update_idem]

theorem linking_link {now : Nat} (mayLaunch : Bool) {l : LinkCell} (h : w.Linking)
    (head : (w.chan .exit circ).head? = some (.link l))
    (inStep : CellInStep p w .exit circ now (.link l)) :
    (w.handled .exit circ (processLink p .exit mayLaunch now (w.ep .exit) circ l)).Linking := by
  have inFlight : Cell.link l ∈ w.chan .exit circ := List.mem_of_head? head
  obtain ⟨only, empty, notKnown, fresh⟩ := h.linkCell circ l inFlight
  have notLeg : (w.ep .exit).cfx.getLeg circ = none :=
    getLeg_eq_none fun isLeg => fresh (Endpoint.mem_used_of_circs isLeg)
  have noPending : (w.ep .exit).unlinked = [] := h.exitPending
  have notPending : (w.ep .exit).getPending circ = none := by simp [Endpoint.getPending, noPending]
  have created := getOrCreate_shrinks h.exitUsed noPending l.nonce
  simp only [CellInStep, true_imp_iff] at inStep
  simp only [processLink, notLeg, notPending, Option.isSome_none, Bool.or_false, Bool.false_eq_true,
    reduceCtorEq, if_false]
  generalize (w.ep .exit).getOrCreate l.nonce = ex at created inStep ⊢
  have stillNone : ex.unlinked = [] := List.eq_nil_iff_forall_not_mem.mpr fun leg mem => by
    have := created.unlinked leg mem
    rw [noPending] at this
    cases this
  have freshNow : circ ∉ ex.used := fun mem => fresh (created.used circ mem)
  have deaf : ¬ ex.Listens circ := fun listens =>
    freshNow (List.mem_append.mpr (.inl (List.mem_append.mpr listens.2)))
  have tail : (w.chan .exit circ).tail = [] := by rw [only]; rfl
  have popped : TorJet.Linking (w.ep .client) ex (w.chan .client)
      (Function.update (w.chan .exit) circ (w.chan .exit circ).tail) := by
    have before := h.exitShrinks created
    rw [tail]
    exact before.exitPop only
      ((Endpoint.Shrinks.refl created.nodup).takes before.exitCurr deaf)
  have refused : ∀ ep : Endpoint, ex.Shrinks ep → (w.handled .exit circ (ep, [])).Linking := by
    intro ep shrinks
    rw [handled_nil]
    exact popped.exitShrinks shrinks
  have single (leg : PendingLeg) : ex.unlinked ++ [leg] = [leg] := by rw [stillNone, List.nil_append]
  rw [single]
  split
  · rename_i cfx accepted
    obtain ⟨rfl, -, -⟩ := tryFinalizeSet_linked accepted
    have agrees := inStep (by
      rw [show linkLeg circ now l =
        { legNew circ l with linkSentUsec := now, linked := true } from rfl, accepted]
      rfl)
    exact popped.exitLinked stillNone
      freshNow empty ((Function.update_self _ _ _).trans tail) notKnown
      (fun leg isPending same => by
        refine ⟨h.unanswered leg isPending l (same ▸ inFlight), fun zero => ?_⟩
        have none := (h.unopened leg isPending zero).1
        rw [show leg.circ = circ from same, only] at none
        cases none)
      agrees.1 agrees.2
  · rename_i waits
    exact absurd waits (by simp [tryFinalizeSet]; grind)
  · exact refused _ (teardown_shrinks created.nodup circ _)
  · split
    · exact refused _ (teardown_shrinks created.nodup circ _)
    · exact refused _ { Endpoint.Shrinks.refl created.nodup with }
  · split
    · exact refused _ (teardown_shrinks created.nodup circ _)
    · exact refused _ { Endpoint.Shrinks.refl created.nodup with }

theorem linking_answered {leg new : PendingLeg} {l : LinkCell} {rest : List Cell} (h : w.Linking)
    (head : w.chan .client leg.circ = .linked l :: rest) (mem : leg ∈ (w.ep .client).unlinked)
    (sameCirc : new.circ = leg.circ) (newLink : new.link = l) (sent : new.linkSentUsec ≠ 0) :
    (w.handled .client leg.circ
      ((w.ep .client).modifyPending leg.circ fun _ => new, [.linkedAck])).Linking := by
  have tail : (w.chan .client leg.circ).tail = rest := by rw [head]; rfl
  have answered := TorJet.Linking.answered h mem head sameCirc newLink sent
  have acked := answered.acked
    (fun link inFlight => by
      have empty := (h.linkCell _ _ inFlight).2.1
      rw [head] at empty
      cases empty)
    (fun x isPending same => by
      rcases mem_modifyPending h.clientUsed mem isPending with ⟨-, other⟩ | rfl
      · exact absurd same other
      · exact sent)
  rw [← tail] at acked
  exact acked

theorem linking_linked (now : Nat) (mayLaunch : Bool) {l : LinkCell} {rest : List Cell}
    (h : w.Linking) (head : w.chan .client circ = .linked l :: rest)
    (isPending : circ ∈ (w.ep .client).pending) :
    (w.handled .client circ (processLinked p .client mayLaunch now (w.ep .client) circ l)).Linking := by
  obtain ⟨leg, found⟩ := Option.isSome_iff_exists.mp (Endpoint.getPending_isSome.mpr isPending)
  obtain ⟨mem, rfl⟩ := (find?_key_iff (Endpoint.pending_nodup h.clientUsed)).mp found
  have closing (why : CloseReason) : (w.handled .client leg.circ
      ((w.ep .client).closeCirc .client mayLaunch leg.circ why, [])).Linking := by
    rw [handled_nil]
    exact h.takes head (closeCirc_takes h.clientUsed h.clientCurr why)
  simp only [processLinked, reduceCtorEq, if_false, found]
  split
  · exact closing _
  · split
    · exact closing _
    · rename_i new recorded
      have shape : new.circ = leg.circ ∧ new.link = l ∧ new.linkSentUsec ≠ 0 := by
        unfold recordRttClient at recorded
        split at recorded
        · cases recorded
        · rename_i nonzero
          split at recorded
          · cases recorded
          · obtain rfl := Option.some.inj recorded
            exact ⟨rfl, rfl, nonzero⟩
      have acked := linking_answered h head mem shape.1 shape.2.1 shape.2.2
      split
      · rename_i cfx accepted
        obtain ⟨rfl, allLinked, -⟩ := tryFinalizeSet_linked accepted
        exact TorJet.Linking.clientFinalized acked allLinked
      · exact acked
      · exact acked
      · rw [handled_nil]
        exact h.takes head ((teardown_shrinks h.clientUsed leg.circ _).takes h.clientCurr
          fun listening => by cases listening.1)
      · exact closing _

theorem linking_handled {s : Side} {now : Nat} (mayLaunch : Bool) (fails : Option Nat) {cell : Cell}
    {rest : List Cell} (h : w.Linking) (head : w.chan s circ = cell :: rest)
    (ok : CellInStep p w s circ now cell) :
    (w.handled s circ (recvCell p s mayLaunch now fails (w.ep s) circ cell)).Linking := by
  by_cases isLink : ∃ l, cell = .link l ∧ s = .exit
  · obtain ⟨l, rfl, rfl⟩ := isLink
    exact linking_link _ h (by rw [head]; rfl) ok
  · by_cases isLinked : ∃ l, cell = .linked l ∧ s = .client ∧ circ ∈ (w.ep s).pending
    · obtain ⟨l, rfl, rfl, isPending⟩ := isLinked
      exact linking_linked _ _ h head isPending
    · obtain ⟨takes, none⟩ := recvCell_takes p s circ (h.used s) (h.curr s) cell
        (fun l eq => by cases s <;> simp_all)
        (fun l eq => by cases s <;> simp_all)
        (fun m eq multiplexed => by
          subst eq
          exact ok multiplexed)
      rw [handled, none, push_nil]
      exact h.takes head takes

theorem step_recv {s : Side} {now : Nat} {mayLaunch : Bool} {fails : Option Nat}
    (action : step p w (.recv s circ now mayLaunch fails) = some w') :
    ∃ cell rest, w.chan s circ = cell :: rest ∧ (w.ep s).hears s circ = true ∧
      ∃ r, r = recvCell p s mayLaunch now fails (w.ep s) circ cell ∧
        (w' = w.handled s circ r ∨ fails.isSome = true ∧ r.1.closed = false ∧
          w' = (w.handled s circ r).setEp s (r.1.closeCirc s mayLaunch circ .handlerFailed)) := by
  simp only [step] at action
  split at action
  · cases action
  · rename_i cell rest head
    split at action
    · cases action
    · rename_i hears
      rw [Bool.not_eq_true, Bool.not_eq_false'] at hears
      refine ⟨cell, rest, head, hears, _, rfl, ?_⟩
      obtain rfl := Option.some.inj action
      split
      · rename_i failing
        rw [Bool.and_eq_true, Bool.not_eq_true'] at failing
        exact .inr ⟨failing.1, failing.2, (handled_setEp s circ _ _).symm⟩
      · exact .inl rfl

theorem linking_recv {s : Side} {now : Nat} {mayLaunch : Bool} {fails : Option Nat} (h : w.Linking)
    (inStep : InStep p w (.recv s circ now mayLaunch fails))
    (action : step p w (.recv s circ now mayLaunch fails) = some w') : w'.Linking := by
  obtain ⟨cell, rest, head, -, r, rfl, eq⟩ := step_recv action
  have handled := linking_handled mayLaunch fails h head
    (inStep cell (by rw [head]; rfl))
  rcases eq with rfl | ⟨-, -, rfl⟩
  · exact handled
  · refine handled.shrinks ?_
    have used := handled.used s
    rw [handled_ep] at used ⊢
    exact closeCirc_shrinks used s mayLaunch circ _

theorem step_linking {e : Event} (h : w.Linking) (inStep : InStep p w e)
    (action : step p w e = some w') : w'.Linking := by
  cases e with
  | send => exact linking_send h action
  | canSend => exact linking_canSend h action
  | tune => exact linking_tune h action
  | updateRtt => exact linking_updateRtt h action
  | recv => exact linking_recv h inStep action
  | close => exact linking_close h action
  | launch => exact linking_launch h action
  | opened => exact linking_opened h action

theorem LinkedStart.linking {start : World} (h : start.LinkedStart) : start.Linking := by
  have used (s : Side) : (start.ep s).used = (start.ep s).cfx.circs := by
    simp [Endpoint.used, Endpoint.pending, h.unlinked s, (h.fresh s).2.2.1]
  have synced (s : Side) : Synced (start.ep s) (start.ep s.peer) (start.chan s.peer) := by
    intro c known _
    have mem : c ∈ (start.ep s).cfx.circs := by
      rcases known with mem | mem
      · exact mem
      · rw [(h.fresh s).2.2.1] at mem
        cases mem
    rw [h.empty, h.legs s c mem]
    rfl
  have noLeg : ∀ leg, leg ∉ (start.ep .client).unlinked := fun leg mem => by
    rw [h.unlinked] at mem
    cases mem
  exact
    { clientUsed := used .client ▸ h.nodup .client
      exitUsed := used .exit ▸ h.nodup .exit
      clientCurr := fun c current => (h.current .client c current).1
      exitCurr := fun c current => (h.current .exit c current).1
      exitPending := h.unlinked .exit
      toExitSynced := synced .client
      toClientSynced := synced .exit
      quiet := fun leg mem => absurd mem (noLeg leg)
      linkedLeg := fun leg mem => absurd mem (noLeg leg)
      linkedCell := fun leg mem => absurd mem (noLeg leg)
      linkCell := fun c l found => by
        rw [h.empty] at found
        cases found
      unanswered := fun leg mem => absurd mem (noLeg leg)
      unopened := fun leg mem => absurd mem (noLeg leg) }

def LegAgrees (w : World) (s : Side) (circ : CircId) : Prop :=
  ∀ snd rcv, (w.ep s).cfx.getLeg circ = some snd → (w.ep s.peer).cfx.getLeg circ = some rcv →
    advance rcv.lastSeqRecv ((w.chan s.peer circ).map Cell.token) = snd.lastSeqSent ∧
      ((∀ cell ∈ w.chan s.peer circ, cell.token = .other) → rcv.lastSeqRecv = snd.lastSeqSent)

def dataMsg : RelayMsg := { command := .data, streamId := 1, body := [] }

def endMsg : RelayMsg := { command := .end_, streamId := 1, body := [] }

end World
end TorJet
