import TorJet.Conflux.Effects

/-!
# The link handshake

`Linking` ties the two ends of a circuit together through the LINK, LINKED and LINKED_ACK cells. It
holds of every run in which a LINK finds the exit at the numbers it announces.
-/

namespace TorJet
open Smartlist Base

structure Linking (cl ex : Endpoint) (toClient toExit : CircId → List Cell) : Prop where
  clientUsed : cl.used.Nodup
  exitUsed : ex.used.Nodup
  clientCurr : ∀ c, cl.cfx.currLeg = some c → c ∈ cl.cfx.circs
  exitCurr : ∀ c, ex.cfx.currLeg = some c → c ∈ ex.cfx.circs
  exitPending : ex.unlinked = []
  toExitSynced : Synced cl ex toExit
  toClientSynced : Synced ex cl toClient
  quiet : ∀ leg ∈ cl.unlinked, ∀ cell ∈ toExit leg.circ, cell.token = .other
  linkedLeg : ∀ leg ∈ cl.unlinked, leg.linked = true → leg.circ ∈ ex.cfx.circs →
    ex.recvCtr leg.circ = leg.link.lastSeqnoRecv
  linkedCell : ∀ leg ∈ cl.unlinked, ∀ l, .linked l ∈ toClient leg.circ → leg.circ ∈ ex.cfx.circs →
    ex.recvCtr leg.circ = l.lastSeqnoRecv
  linkCell : ∀ c l, .link l ∈ toExit c →
    toExit c = [.link l] ∧ toClient c = [] ∧ ¬ cl.Known c ∧ c ∉ ex.used
  unanswered : ∀ leg ∈ cl.unlinked, ∀ l, .link l ∈ toExit leg.circ → leg.linked = false
  unopened : ∀ leg ∈ cl.unlinked, leg.linkSentUsec = 0 →
    toExit leg.circ = [] ∧ toClient leg.circ = [] ∧ leg.circ ∉ ex.used ∧ leg.linked = false

theorem Endpoint.Known.mem_used {ep : Endpoint} {c : CircId} (known : ep.Known c) : c ∈ ep.used := by
  rcases known with mem | mem
  · exact List.mem_append.mpr (.inl (List.mem_append.mpr (.inl mem)))
  · exact List.mem_append.mpr (.inr mem)

theorem Endpoint.mem_used_of_circs {ep : Endpoint} {c : CircId} (mem : c ∈ ep.cfx.circs) :
    c ∈ ep.used := Known.mem_used (.inl mem)

theorem Endpoint.circ_ne {ep : Endpoint} (nodup : ep.used.Nodup) {c : CircId}
    (mem : c ∈ ep.cfx.circs) {leg : PendingLeg} (isPending : leg ∈ ep.unlinked) : leg.circ ≠ c :=
  fun eq => notMem_pending nodup mem (eq ▸ List.mem_map_of_mem isPending)

namespace Linking
variable {cl cl' ex ex' : Endpoint} {toClient toExit : CircId → List Cell} {circ : CircId}
  (h : Linking cl ex toClient toExit)
include h

/-! ## The client sends, receives or closes -/

theorem clientPush {cells : List Cell} (sends : cl.Sends cl' circ cells) :
    Linking cl' ex toClient (Function.update toExit circ (toExit circ ++ cells)) := by
  obtain ⟨shape, recv, curr, mem, plain, other, here⟩ := sends
  have elsewhere : ∀ leg ∈ cl.unlinked,
      Function.update toExit circ (toExit circ ++ cells) leg.circ = toExit leg.circ :=
    fun leg isPending => Function.update_of_ne (Endpoint.circ_ne h.clientUsed mem isPending) _ _
  exact
    { h with
      clientUsed := shape.used ▸ h.clientUsed
      clientCurr := curr
      toExitSynced := h.toExitSynced.push (fun c => (shape.known c).mp) other here
      toClientSynced := h.toClientSynced.mono (fun _ known => ⟨known, rfl⟩) fun c listening =>
        ⟨(shape.listens c).mp listening, congrFun recv c⟩
      quiet := fun leg isPending => by
        rw [shape.unlinked] at isPending
        rw [elsewhere leg isPending]
        exact h.quiet leg isPending
      linkedLeg := shape.unlinked ▸ h.linkedLeg
      linkedCell := shape.unlinked ▸ h.linkedCell
      linkCell := fun c l found => by
        by_cases same : c = circ
        · subst same
          rw [Function.update_self, List.mem_append] at found
          rcases found with old | new
          · exact absurd (.inl mem) (h.linkCell c l old).2.2.1
          · exact absurd new (plain l).1
        · rw [Function.update_of_ne same] at found ⊢
          rw [shape.known]
          exact h.linkCell c l found
      unanswered := fun leg isPending => by
        rw [shape.unlinked] at isPending
        rw [elsewhere leg isPending]
        exact h.unanswered leg isPending
      unopened := fun leg isPending => by
        rw [shape.unlinked] at isPending
        rw [elsewhere leg isPending]
        exact h.unopened leg isPending }

theorem clientIdle (shape : cl.SameShape cl') (sent : cl'.sentCtr = cl.sentCtr)
    (recv : cl'.recvCtr = cl.recvCtr) (curr : ∀ c, cl'.cfx.currLeg = some c → c ∈ cl'.cfx.circs) :
    Linking cl' ex toClient toExit :=
  { h with
    clientUsed := shape.used ▸ h.clientUsed
    clientCurr := curr
    toExitSynced := h.toExitSynced.mono
      (fun c known => ⟨(shape.known c).mp known, congrFun sent c⟩) fun _ listening => ⟨listening, rfl⟩
    toClientSynced := h.toClientSynced.mono (fun _ known => ⟨known, rfl⟩) fun c listening =>
      ⟨(shape.listens c).mp listening, congrFun recv c⟩
    quiet := shape.unlinked ▸ h.quiet
    linkedLeg := shape.unlinked ▸ h.linkedLeg
    linkedCell := shape.unlinked ▸ h.linkedCell
    linkCell := fun c l found => by
      rw [shape.known]
      exact h.linkCell c l found
    unanswered := shape.unlinked ▸ h.unanswered
    unopened := shape.unlinked ▸ h.unopened }

theorem clientPop {cell : Cell} {rest : List Cell} (head : toClient circ = cell :: rest)
    (takes : cl.Takes cl' circ cell.token) :
    Linking cl' ex (Function.update toClient circ rest) toExit := by
  obtain ⟨used, _, known, sent, unlinked, curr, _, listens, other, here⟩ := takes
  have fewer := pop_subset head
  have noneLeft : ∀ c, toClient c = [] → Function.update toClient circ rest c = [] := by
    intro c empty
    exact List.eq_nil_of_subset_nil (empty ▸ fewer c)
  exact
    { h with
      clientUsed := used
      clientCurr := curr
      toExitSynced := h.toExitSynced.mono (fun c isKnown => ⟨(known c).mp isKnown, congrFun sent c⟩)
        fun _ listening => ⟨listening, rfl⟩
      toClientSynced := h.toClientSynced.pop head listens other here
      quiet := fun leg isPending => h.quiet leg (unlinked leg isPending)
      linkedLeg := fun leg isPending => h.linkedLeg leg (unlinked leg isPending)
      linkedCell := fun leg isPending l found => h.linkedCell leg (unlinked leg isPending) l (fewer _ found)
      linkCell := fun c l found => by
        obtain ⟨only, empty, notKnown, fresh⟩ := h.linkCell c l found
        exact ⟨only, noneLeft c empty, fun isKnown => notKnown ((known c).mp isKnown), fresh⟩
      unanswered := fun leg isPending => h.unanswered leg (unlinked leg isPending)
      unopened := fun leg isPending zero => by
        obtain ⟨out, back, fresh, notLinked⟩ := h.unopened leg (unlinked leg isPending) zero
        exact ⟨out, noneLeft _ back, fresh, notLinked⟩ }

theorem clientShrinks (shrinks : cl.Shrinks cl') : Linking cl' ex toClient toExit :=
  { h with
    clientUsed := shrinks.nodup
    clientCurr := shrinks.curr h.clientCurr
    toExitSynced := h.toExitSynced.mono
      (fun c known => ⟨(shrinks.known c).mp known, congrFun shrinks.sentCtr c⟩)
      fun _ listening => ⟨listening, rfl⟩
    toClientSynced := h.toClientSynced.mono (fun _ known => ⟨known, rfl⟩) shrinks.listens
    quiet := fun leg isPending => h.quiet leg (shrinks.unlinked leg isPending)
    linkedLeg := fun leg isPending => h.linkedLeg leg (shrinks.unlinked leg isPending)
    linkedCell := fun leg isPending => h.linkedCell leg (shrinks.unlinked leg isPending)
    linkCell := fun c l found => by
      rw [shrinks.known]
      exact h.linkCell c l found
    unanswered := fun leg isPending => h.unanswered leg (shrinks.unlinked leg isPending)
    unopened := fun leg isPending => h.unopened leg (shrinks.unlinked leg isPending) }

/-! ## The exit sends, receives or closes -/

theorem exitPush {cells : List Cell} (sends : ex.Sends ex' circ cells) :
    Linking cl ex' (Function.update toClient circ (toClient circ ++ cells)) toExit := by
  obtain ⟨shape, recv, curr, mem, plain, other, here⟩ := sends
  have isUsed := Endpoint.mem_used_of_circs mem
  have elsewhere : ∀ c, c ∉ ex.used →
      Function.update toClient circ (toClient circ ++ cells) c = toClient c :=
    fun c fresh => by
      have ne : c ≠ circ := fun eq => fresh (eq ▸ isUsed)
      exact Function.update_of_ne ne _ _
  exact
    { h with
      exitUsed := shape.used ▸ h.exitUsed
      exitCurr := curr
      exitPending := shape.unlinked ▸ h.exitPending
      toExitSynced := h.toExitSynced.mono (fun _ known => ⟨known, rfl⟩) fun c listening =>
        ⟨(shape.listens c).mp listening, congrFun recv c⟩
      toClientSynced := h.toClientSynced.push (fun c => (shape.known c).mp) other here
      linkedLeg := by
        rw [shape.circs, recv]
        exact h.linkedLeg
      linkedCell := fun leg isPending l found => by
        rw [shape.circs, recv]
        refine h.linkedCell leg isPending l ?_
        by_cases same : leg.circ = circ
        · rw [same, Function.update_self, List.mem_append] at found
          rcases found with old | new
          · exact same ▸ old
          · exact absurd new (plain l).2
        · rwa [Function.update_of_ne same] at found
      linkCell := fun c l found => by
        obtain ⟨only, empty, notKnown, fresh⟩ := h.linkCell c l found
        rw [shape.used, elsewhere c fresh]
        exact ⟨only, empty, notKnown, fresh⟩
      unopened := fun leg isPending zero => by
        obtain ⟨out, back, fresh, notLinked⟩ := h.unopened leg isPending zero
        rw [shape.used, elsewhere _ fresh]
        exact ⟨out, back, fresh, notLinked⟩ }

theorem exitIdle (shape : ex.SameShape ex') (sent : ex'.sentCtr = ex.sentCtr)
    (recv : ex'.recvCtr = ex.recvCtr) (curr : ∀ c, ex'.cfx.currLeg = some c → c ∈ ex'.cfx.circs) :
    Linking cl ex' toClient toExit :=
  { h with
    exitUsed := shape.used ▸ h.exitUsed
    exitCurr := curr
    exitPending := shape.unlinked ▸ h.exitPending
    toExitSynced := h.toExitSynced.mono (fun _ known => ⟨known, rfl⟩) fun c listening =>
      ⟨(shape.listens c).mp listening, congrFun recv c⟩
    toClientSynced := h.toClientSynced.mono
      (fun c known => ⟨(shape.known c).mp known, congrFun sent c⟩) fun _ listening => ⟨listening, rfl⟩
    linkedLeg := by
      rw [shape.circs, recv]
      exact h.linkedLeg
    linkedCell := by
      rw [shape.circs, recv]
      exact h.linkedCell
    linkCell := shape.used ▸ h.linkCell
    unopened := shape.used ▸ h.unopened }

theorem exitPop {cell : Cell} {rest : List Cell} (head : toExit circ = cell :: rest)
    (takes : ex.Takes ex' circ cell.token) :
    Linking cl ex' toClient (Function.update toExit circ rest) := by
  obtain ⟨used, fewerUsed, known, sent, unlinked, curr, circs, listens, other, here⟩ := takes
  have fewer := pop_subset head
  -- on an unlinked leg the counter stands still, since the cell taken off means nothing there
  have still : ∀ leg ∈ cl.unlinked, leg.circ ∈ ex'.cfx.circs →
      leg.circ ∈ ex.cfx.circs ∧ ex'.recvCtr leg.circ = ex.recvCtr leg.circ := by
    intro leg isPending mem
    obtain ⟨was, same | ⟨eq, moved⟩⟩ := circs leg.circ mem
    · exact ⟨was, same⟩
    · have token := h.quiet leg isPending cell (by rw [eq, head]; exact List.mem_cons_self)
      rw [token] at moved
      exact ⟨was, moved⟩
  exact
    { h with
      exitUsed := used
      exitCurr := curr
      exitPending := List.eq_nil_iff_forall_not_mem.mpr fun leg mem => by
        have := unlinked leg mem
        rw [h.exitPending] at this
        cases this
      toExitSynced := h.toExitSynced.pop head listens other here
      toClientSynced := h.toClientSynced.mono
        (fun c isKnown => ⟨(known c).mp isKnown, congrFun sent c⟩) fun _ listening => ⟨listening, rfl⟩
      quiet := fun leg isPending cell found => h.quiet leg isPending cell (fewer _ found)
      linkedLeg := fun leg isPending isLinked mem => by
        obtain ⟨was, same⟩ := still leg isPending mem
        rw [same]
        exact h.linkedLeg leg isPending isLinked was
      linkedCell := fun leg isPending l found mem => by
        obtain ⟨was, same⟩ := still leg isPending mem
        rw [same]
        exact h.linkedCell leg isPending l found was
      linkCell := fun c l found => by
        obtain ⟨only, empty, notKnown, fresh⟩ := h.linkCell c l (fewer c found)
        by_cases same : c = circ
        · subst same
          rw [Function.update_self] at found
          rw [only, List.cons.injEq] at head
          rw [← head.2] at found
          cases found
        · rw [Function.update_of_ne same]
          exact ⟨only, empty, notKnown, fun mem => fresh (fewerUsed c mem)⟩
      unanswered := fun leg isPending l found => h.unanswered leg isPending l (fewer _ found)
      unopened := fun leg isPending zero => by
        obtain ⟨out, back, fresh, notLinked⟩ := h.unopened leg isPending zero
        exact ⟨List.eq_nil_of_subset_nil (out ▸ fewer _), back,
          fun mem => fresh (fewerUsed _ mem), notLinked⟩ }

theorem exitShrinks (shrinks : ex.Shrinks ex') : Linking cl ex' toClient toExit :=
  { h with
    exitUsed := shrinks.nodup
    exitCurr := shrinks.curr h.exitCurr
    exitPending := List.eq_nil_iff_forall_not_mem.mpr fun leg mem => by
      have := shrinks.unlinked leg mem
      rw [h.exitPending] at this
      cases this
    toExitSynced := h.toExitSynced.mono (fun _ known => ⟨known, rfl⟩) shrinks.listens
    toClientSynced := h.toClientSynced.mono
      (fun c known => ⟨(shrinks.known c).mp known, congrFun shrinks.sentCtr c⟩)
      fun _ listening => ⟨listening, rfl⟩
    linkedLeg := fun leg isPending isLinked mem => by
      obtain ⟨was, same⟩ := shrinks.circs _ mem
      rw [same]
      exact h.linkedLeg leg isPending isLinked was
    linkedCell := fun leg isPending l found mem => by
      obtain ⟨was, same⟩ := shrinks.circs _ mem
      rw [same]
      exact h.linkedCell leg isPending l found was
    linkCell := fun c l found => by
      obtain ⟨only, empty, notKnown, fresh⟩ := h.linkCell c l found
      exact ⟨only, empty, notKnown, fun mem => fresh (shrinks.used c mem)⟩
    unopened := fun leg isPending zero => by
      obtain ⟨out, back, fresh, notLinked⟩ := h.unopened leg isPending zero
      exact ⟨out, back, fun mem => fresh (shrinks.used _ mem), notLinked⟩ }

/-! ## The handshake -/

theorem launch {leg : PendingLeg} (cfx : cl'.cfx.legs = cl.cfx.legs)
    (curr : cl'.cfx.currLeg = cl.cfx.currLeg) (unlinked : cl'.unlinked = cl.unlinked ++ [leg])
    (retired : cl'.retired = cl.retired) (closed : cl'.closed = cl.closed)
    (notLinked : leg.linked = false) (newClient : leg.circ ∉ cl.used) (newExit : leg.circ ∉ ex.used)
    (emptyClient : toClient leg.circ = []) (emptyExit : toExit leg.circ = []) :
    Linking cl' ex toClient toExit := by
  have circs : cl'.cfx.circs = cl.cfx.circs := by rw [Conflux.circs, cfx]; rfl
  have known : ∀ c, cl'.Known c ↔ cl.Known c := fun c => by
    simp only [Endpoint.Known, circs, retired]
  have pending : cl'.pending = cl.pending ++ [leg.circ] := by simp [Endpoint.pending, unlinked]
  have used : cl'.used.Perm (leg.circ :: cl.used) := by
    simp only [Endpoint.used, circs, pending, retired]
    rw [← List.append_assoc, List.append_assoc _ [leg.circ]]
    exact List.perm_middle
  have cases : ∀ l ∈ cl'.unlinked, l ∈ cl.unlinked ∨ l = leg := fun l mem => by
    simpa [unlinked] using mem
  exact
    { h with
      clientUsed := used.nodup_iff.mpr (List.nodup_cons.mpr ⟨newClient, h.clientUsed⟩)
      clientCurr := by rw [circs, curr]; exact h.clientCurr
      toExitSynced := h.toExitSynced.mono
        (fun c isKnown => ⟨(known c).mp isKnown, congrFun (sentCtr_congr cfx retired) c⟩)
        fun _ listening => ⟨listening, rfl⟩
      toClientSynced := fun c isKnown listens => by
        obtain ⟨opened, mem⟩ := listens
        have ne : c ≠ leg.circ := fun eq => newExit (eq ▸ isKnown.mem_used)
        have recv : cl'.recvCtr c = cl.recvCtr c := by
          simp only [Endpoint.recvCtr, Conflux.getLeg, Endpoint.getPending, cfx, unlinked,
            List.find?_append, List.find?_singleton, Ne.symm ne, decide_false, Bool.false_eq_true,
            if_false, Option.or_none]
        rw [recv]
        refine h.toClientSynced c isKnown ⟨closed ▸ opened, ?_⟩
        rw [circs, pending, List.mem_append, List.mem_singleton] at mem
        tauto
      quiet := fun l isPending => by
        rcases cases l isPending with old | rfl
        · exact h.quiet l old
        · rw [emptyExit]
          exact fun cell mem => by cases mem
      linkedLeg := fun l isPending isLinked => by
        rcases cases l isPending with old | rfl
        · exact h.linkedLeg l old isLinked
        · rw [notLinked] at isLinked
          cases isLinked
      linkedCell := fun l isPending link found => by
        rcases cases l isPending with old | rfl
        · exact h.linkedCell l old link found
        · rw [emptyClient] at found
          cases found
      linkCell := fun c l found => by
        rw [known]
        exact h.linkCell c l found
      unanswered := fun l isPending link found => by
        rcases cases l isPending with old | rfl
        · exact h.unanswered l old link found
        · exact notLinked
      unopened := fun l isPending zero => by
        rcases cases l isPending with old | rfl
        · exact h.unopened l old zero
        · exact ⟨emptyExit, emptyClient, newExit, notLinked⟩ }

theorem opened {leg : PendingLeg} {now : Nat} (mem : leg ∈ cl.unlinked) (zero : leg.linkSentUsec = 0)
    (nonzero : now ≠ 0) :
    Linking (cl.modifyPending leg.circ fun l => { l with linkSentUsec := now }) ex toClient
      (Function.update toExit leg.circ (toExit leg.circ ++ [.link leg.link])) := by
  obtain ⟨emptyExit, emptyClient, newExit, notLinked⟩ := h.unopened leg mem zero
  have notKnown : ¬ cl.Known leg.circ := fun known => by
    rcases known with isLeg | isRetired
    · exact Endpoint.notMem_pending h.clientUsed isLeg (List.mem_map_of_mem mem)
    · exact Endpoint.notMem_retired h.clientUsed (.inr (List.mem_map_of_mem mem)) isRetired
  have keeps : ∀ l : PendingLeg, l.circ = leg.circ →
      ({ l with linkSentUsec := now } : PendingLeg).circ = leg.circ := fun _ isCirc => isCirc
  have cases (l : PendingLeg)
      (isPending : l ∈ (cl.modifyPending leg.circ fun l => { l with linkSentUsec := now }).unlinked) :
      (l ∈ cl.unlinked ∧ l.circ ≠ leg.circ) ∨ l = { leg with linkSentUsec := now } :=
    mem_modifyPending h.clientUsed mem isPending
  have elsewhere : ∀ c, c ≠ leg.circ →
      Function.update toExit leg.circ (toExit leg.circ ++ [.link leg.link]) c = toExit c :=
    fun c ne => Function.update_of_ne ne _ _
  have link : Function.update toExit leg.circ (toExit leg.circ ++ [.link leg.link]) leg.circ =
      [.link leg.link] := by rw [Function.update_self, emptyExit]; rfl
  exact
    { h with
      clientUsed := by
        rw [modifyPending_used keeps]
        exact h.clientUsed
      toExitSynced := Synced.mono
        (h.toExitSynced.push_other (by simp [Cell.token]))
        (fun c known => ⟨known, rfl⟩) fun c listening => ⟨listening, rfl⟩
      toClientSynced := h.toClientSynced.mono (fun c known => ⟨known, rfl⟩) fun c listening => by
        refine ⟨(modifyPending_listens keeps cl c).mp listening, ?_⟩
        rw [modifyPending_recvCtr keeps h.clientUsed mem rfl,
          ← recvCtr_of_pending h.clientUsed mem, Function.update_eq_self]
      quiet := fun l isPending => by
        rcases cases l isPending with ⟨old, ne⟩ | rfl
        · rw [elsewhere _ ne]
          exact h.quiet l old
        · rw [link]
          simp [Cell.token]
      linkedLeg := fun l isPending isLinked => by
        rcases cases l isPending with ⟨old, ne⟩ | rfl
        · exact h.linkedLeg l old isLinked
        · rw [show leg.linked = true from isLinked] at notLinked
          cases notLinked
      linkedCell := fun l isPending answer found => by
        rcases cases l isPending with ⟨old, ne⟩ | rfl
        · exact h.linkedCell l old answer found
        · rw [show toClient leg.circ = [] from emptyClient] at found
          cases found
      linkCell := fun c l found => by
        by_cases same : c = leg.circ
        · subst same
          rw [link, List.mem_singleton, Cell.link.injEq] at found
          rw [link, found]
          exact ⟨rfl, emptyClient, notKnown, newExit⟩
        · rw [elsewhere c same] at found ⊢
          exact h.linkCell c l found
      unanswered := fun l isPending answer found => by
        rcases cases l isPending with ⟨old, ne⟩ | rfl
        · rw [elsewhere _ ne] at found
          exact h.unanswered l old answer found
        · exact notLinked
      unopened := fun l isPending stillZero => by
        rcases cases l isPending with ⟨old, ne⟩ | rfl
        · rw [elsewhere _ ne]
          exact h.unopened l old stillZero
        · exact absurd stillZero nonzero }

theorem answered {leg new : PendingLeg} {l : LinkCell} {rest : List Cell} (mem : leg ∈ cl.unlinked)
    (head : toClient leg.circ = .linked l :: rest) (sameCirc : new.circ = leg.circ)
    (newLink : new.link = l) (sent : new.linkSentUsec ≠ 0) :
    Linking (cl.modifyPending leg.circ fun _ => new) ex (Function.update toClient leg.circ rest)
      toExit := by
  have fewer := pop_subset head
  have keeps : ∀ x : PendingLeg, x.circ = leg.circ → new.circ = leg.circ := fun _ _ => sameCirc
  have cases (x : PendingLeg) (isPending : x ∈ (cl.modifyPending leg.circ fun _ => new).unlinked) :
      (x ∈ cl.unlinked ∧ x.circ ≠ leg.circ) ∨ x = new :=
    mem_modifyPending h.clientUsed mem isPending
  have recv := modifyPending_recvCtr (f := fun _ => new) keeps h.clientUsed mem rfl
  -- the answer is in flight, so the LINK of this leg is not
  have noLink : ∀ link, .link link ∉ toExit leg.circ := fun link found => by
    have empty := (h.linkCell _ _ found).2.1
    rw [head] at empty
    cases empty
  exact
    { h with
      clientUsed := by
        rw [modifyPending_used keeps]
        exact h.clientUsed
      toExitSynced := h.toExitSynced.mono (fun c known => ⟨known, rfl⟩) fun c listening => ⟨listening, rfl⟩
      toClientSynced := h.toClientSynced.pop head (fun c => (modifyPending_listens keeps cl c).mp)
        (fun c ne _ => by rw [recv, Function.update_of_ne ne])
        fun _ => by
          rw [recv, Function.update_self, newLink]
          rfl
      quiet := fun x isPending => by
        rcases cases x isPending with ⟨old, _⟩ | rfl
        · exact h.quiet x old
        · rw [sameCirc]
          exact h.quiet leg mem
      linkedLeg := fun x isPending isLinked => by
        rcases cases x isPending with ⟨old, _⟩ | rfl
        · exact h.linkedLeg x old isLinked
        · rw [sameCirc, newLink]
          exact h.linkedCell leg mem l (by rw [head]; exact List.mem_cons_self)
      linkedCell := fun x isPending answer found => by
        rcases cases x isPending with ⟨old, _⟩ | rfl
        · exact h.linkedCell x old answer (fewer _ found)
        · rw [sameCirc] at found ⊢
          exact h.linkedCell leg mem answer (fewer _ found)
      linkCell := fun c link found => by
        obtain ⟨only, empty, notKnown, fresh⟩ := h.linkCell c link found
        exact ⟨only, List.eq_nil_of_subset_nil (empty ▸ fewer c), notKnown, fresh⟩
      unanswered := fun x isPending link found => by
        rcases cases x isPending with ⟨old, _⟩ | rfl
        · exact h.unanswered x old link found
        · rw [sameCirc] at found
          exact absurd found (noLink link)
      unopened := fun x isPending zero => by
        rcases cases x isPending with ⟨old, _⟩ | rfl
        · obtain ⟨out, back, fresh, notLinked⟩ := h.unopened x old zero
          exact ⟨out, List.eq_nil_of_subset_nil (back ▸ fewer _), fresh, notLinked⟩
        · exact absurd zero sent }

theorem acked (noLink : ∀ l, .link l ∉ toExit circ)
    (wasOpened : ∀ leg ∈ cl.unlinked, leg.circ = circ → leg.linkSentUsec ≠ 0) :
    Linking cl ex toClient (Function.update toExit circ (toExit circ ++ [.linkedAck])) := by
  have cases : ∀ c cell, cell ∈ Function.update toExit circ (toExit circ ++ [.linkedAck]) c →
      cell ∈ toExit c ∨ cell = .linkedAck := by
    intro c cell found
    by_cases same : c = circ
    · subst same
      simpa [Function.update_self] using found
    · rw [Function.update_of_ne same] at found
      exact .inl found
  exact
    { h with
      toExitSynced := h.toExitSynced.push_other (by simp [Cell.token])
      quiet := fun leg isPending cell found => by
        rcases cases _ _ found with old | rfl
        · exact h.quiet leg isPending cell old
        · rfl
      linkCell := fun c l found => by
        rcases cases _ _ found with old | new
        · have ne : c ≠ circ := fun eq => noLink l (eq ▸ old)
          rw [Function.update_of_ne ne]
          exact h.linkCell c l old
        · cases new
      unanswered := fun leg isPending l found => by
        rcases cases _ _ found with old | new
        · exact h.unanswered leg isPending l old
        · cases new
      unopened := fun leg isPending zero => by
        have ne : leg.circ ≠ circ := fun eq => wasOpened leg isPending eq zero
        rw [Function.update_of_ne ne]
        exact h.unopened leg isPending zero }

theorem clientFinalized (allLinked : ∀ leg ∈ cl.unlinked, leg.linked = true) :
    Linking cl.finalized ex toClient toExit := by
  have nodup := h.clientUsed
  exact
    { h with
      clientUsed := (finalized_used cl).nodup_iff.mpr nodup
      clientCurr := fun c current => by
        obtain ⟨alg, eq⟩ := addLegs_eq cl.cfx cl.unlinked
        have same : cl.cfx.currLeg = some c := by
          simpa only [Endpoint.finalized, eq] using current
        exact (finalized_circs cl).mem_iff.mpr (List.mem_append.mpr (.inl (h.clientCurr c same)))
      toExitSynced := fun c isKnown listening => by
        rcases (finalized_known cl c).mp isKnown with known | isPending
        · rw [finalized_sentCtr_of_known nodup known]
          exact h.toExitSynced c known listening
        · obtain ⟨leg, mem, rfl⟩ := List.mem_map.mp isPending
          have inExit : leg.circ ∈ ex.cfx.circs := by
            rcases listening.2 with mem | none
            · exact mem
            · rw [Endpoint.pending, h.exitPending] at none
              cases none
          rw [finalized_sentCtr_of_pending nodup mem, advance_quiet _ (h.quiet leg mem)]
          exact h.linkedLeg leg mem (allLinked leg mem) inExit
      toClientSynced := h.toClientSynced.mono (fun _ known => ⟨known, rfl⟩) fun c listening =>
        ⟨(finalized_listens cl c).mp listening, congrFun (finalized_recvCtr nodup) c⟩
      quiet := fun leg mem => by cases mem
      linkedLeg := fun leg mem => by cases mem
      linkedCell := fun leg mem => by cases mem
      linkCell := fun c l found => by
        obtain ⟨only, empty, notKnown, fresh⟩ := h.linkCell c l found
        refine ⟨only, empty, fun isKnown => ?_, fresh⟩
        rcases (finalized_known cl c).mp isKnown with known | isPending
        · exact notKnown known
        · obtain ⟨leg, mem, rfl⟩ := List.mem_map.mp isPending
          have no := h.unanswered leg mem l found
          rw [allLinked leg mem] at no
          cases no
      unanswered := fun leg mem => by cases mem
      unopened := fun leg mem => by cases mem }

theorem exitLinked {leg : PendingLeg} {answer : LinkCell} (noPending : ex.unlinked = [])
    (newExit : leg.circ ∉ ex.used) (emptyClient : toClient leg.circ = [])
    (emptyExit : toExit leg.circ = []) (notKnown : ¬ cl.Known leg.circ)
    (unanswered : ∀ l ∈ cl.unlinked, l.circ = leg.circ → l.linked = false ∧ l.linkSentUsec ≠ 0)
    (recvAgrees : leg.link.lastSeqnoSent = answer.lastSeqnoRecv)
    (sentAgrees : leg.link.lastSeqnoRecv = answer.lastSeqnoSent) :
    Linking cl ({ ex with unlinked := [leg] } : Endpoint).finalized
      (Function.update toClient leg.circ (toClient leg.circ ++ [.linked answer])) toExit := by
  generalize eq : ({ ex with unlinked := [leg] } : Endpoint) = mid
  have used : mid.used.Perm (leg.circ :: ex.used) := by
    subst eq
    simp only [Endpoint.used, Endpoint.pending, noPending, List.map_cons, List.map_nil,
      List.append_nil]
    rw [List.append_assoc]
    exact List.perm_middle
  have nodup : mid.used.Nodup := used.nodup_iff.mpr (List.nodup_cons.mpr ⟨newExit, h.exitUsed⟩)
  have usedAfter : mid.finalized.used.Perm (leg.circ :: ex.used) := (finalized_used mid).trans used
  have pending : mid.pending = [leg.circ] := by subst eq; rfl
  have inMid : leg ∈ mid.unlinked := by subst eq; exact List.mem_singleton_self leg
  have circs : ∀ c, c ∈ mid.finalized.cfx.circs ↔ c ∈ ex.cfx.circs ∨ c = leg.circ := by
    intro c
    rw [(finalized_circs mid).mem_iff, List.mem_append, pending, List.mem_singleton]
    subst eq
    rfl
  have recvNew : mid.finalized.recvCtr leg.circ = leg.link.lastSeqnoSent := by
    have notLeg : mid.cfx.getLeg leg.circ = none := by
      subst eq
      exact getLeg_eq_none fun isLeg => newExit (Endpoint.mem_used_of_circs isLeg)
    rw [finalized_recvCtr nodup, Endpoint.recvCtr, notLeg]
    subst eq
    simp [Endpoint.getPending]
  have recvOld : ∀ c, c ≠ leg.circ → mid.finalized.recvCtr c = ex.recvCtr c := by
    intro c ne
    rw [finalized_recvCtr nodup]
    subst eq
    simp [Endpoint.recvCtr, Endpoint.getPending, noPending, Ne.symm ne]
  have known : ∀ c, c ≠ leg.circ → mid.finalized.Known c → ex.Known c ∧
      mid.finalized.sentCtr c = ex.sentCtr c := by
    intro c ne isKnown
    rcases (finalized_known mid c).mp isKnown with old | isPending
    · rw [finalized_sentCtr_of_known nodup old]
      subst eq
      exact ⟨old, rfl⟩
    · rw [pending, List.mem_singleton] at isPending
      exact absurd isPending ne
  have sentNew : mid.finalized.sentCtr leg.circ = leg.link.lastSeqnoRecv :=
    finalized_sentCtr_of_pending nodup inMid
  have elsewhere : ∀ c, c ≠ leg.circ →
      Function.update toClient leg.circ (toClient leg.circ ++ [.linked answer]) c = toClient c :=
    fun c ne => Function.update_of_ne ne _ _
  have here : Function.update toClient leg.circ (toClient leg.circ ++ [.linked answer]) leg.circ =
      [.linked answer] := by rw [Function.update_self, emptyClient]; rfl
  exact
    { h with
      exitUsed := usedAfter.nodup_iff.mpr (List.nodup_cons.mpr ⟨newExit, h.exitUsed⟩)
      exitCurr := fun c current => by
        obtain ⟨alg, shape⟩ := addLegs_eq mid.cfx mid.unlinked
        refine (circs c).mpr (.inl (h.exitCurr c ?_))
        subst eq
        simpa only [Endpoint.finalized, shape] using current
      exitPending := rfl
      toExitSynced := fun c isKnown listens => by
        obtain ⟨opened, listening⟩ := listens
        have ne : c ≠ leg.circ := fun same => notKnown (same ▸ isKnown)
        rw [recvOld c ne]
        refine h.toExitSynced c isKnown ⟨?_, ?_⟩
        · subst eq
          exact opened
        · rcases listening with mem | none
          · exact .inl (((circs c).mp mem).resolve_right ne)
          · cases none
      toClientSynced := fun c isKnown listening => by
        by_cases same : c = leg.circ
        · subst same
          rw [here, sentNew, sentAgrees]
          rfl
        · rw [elsewhere c same, (known c same isKnown).2]
          exact h.toClientSynced c (known c same isKnown).1 listening
      linkedLeg := fun l isPending isLinked mem => by
        have ne : l.circ ≠ leg.circ := fun same => by
          rw [(unanswered l isPending same).1] at isLinked
          cases isLinked
        rw [recvOld _ ne]
        exact h.linkedLeg l isPending isLinked (((circs _).mp mem).resolve_right ne)
      linkedCell := fun l isPending link found mem => by
        by_cases same : l.circ = leg.circ
        · rw [same, here, List.mem_singleton, Cell.linked.injEq] at found
          rw [same, recvNew, found, recvAgrees]
        · rw [elsewhere _ same] at found
          rw [recvOld _ same]
          exact h.linkedCell l isPending link found (((circs _).mp mem).resolve_right same)
      linkCell := fun c l found => by
        obtain ⟨only, empty, notKnown, fresh⟩ := h.linkCell c l found
        have ne : c ≠ leg.circ := fun same => by
          rw [same, emptyExit] at found
          cases found
        rw [elsewhere c ne, usedAfter.mem_iff, List.mem_cons, not_or]
        exact ⟨only, empty, notKnown, ne, fresh⟩
      unopened := fun l isPending zero => by
        obtain ⟨out, back, fresh, notLinked⟩ := h.unopened l isPending zero
        have ne : l.circ ≠ leg.circ := fun same => (unanswered l isPending same).2 zero
        rw [elsewhere _ ne, usedAfter.mem_iff, List.mem_cons, not_or]
        exact ⟨out, back, ⟨ne, fresh⟩, notLinked⟩ }

end Linking
end TorJet
