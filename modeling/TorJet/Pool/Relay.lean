import TorJet.Pool.Sound
import TorJet.Pool.Uses

/-!
# The pools of a relay

A relay launches nothing and its sets do not wait for legs: what is left to be done of a call is closing circuits.
-/

namespace TorJet.Pool
open Smartlist Base

structure Relay (d : Pools) : Prop where
  owned : Owned d
  empty : ∀ n, d.unlinked n = none
  idle : ∀ c, (d.circs c).pendingNonce = none
  freed : ∀ c, (d.circs c).freed = true → (d.circs c).conflux = none
  unborn : ∀ c, c ∉ d.global → (d.circs c).conflux = none ∧ (d.circs c).marked = false ∧ (d.circs c).freed = false
  side : d.side = .exit

def Frame.Ready (d : Pools) : Frame → Prop
  | .markForClose c => c ∈ d.global
  | .markAllForClose _ | .markLinkedForClose _ | .afterClose .. => True
  | _ => False

section Relay
variable {p : Params} {d d' : Pools} {c : CircId} {n : Nonce} {id : CfxId} {u : Unlinked} {x : Cfx} {full valid : Bool}
  {frames : List Frame} {f : Circ → Circ}

theorem Closes.field {α : Type} (closes : Closes d c full d' frames) (g : Circ → α)
    (conflux : ∀ y : Circ, g { y with conflux := none } = g y) (pending : ∀ y : Circ, g { y with pendingNonce := none } = g y)
    (a : CircId) : g (d'.circs a) = g (d.circs a) := by
  have cleared (u : Unlinked) : g ((d.clearPending c u).circs a) = g (d.circs a) := by
    unfold Pools.clearPending
    split
    · by_cases here : a = c <;> simp [Pools.modifyCirc, here, pending]
    · rfl
  cases closes with
  | nothing | keep => rfl
  | dropLeg => exact cleared _
  | dropSet =>
      rw [deleteSet_circs]
      exact cleared _
  | detach => by_cases here : a = c <;> simp [Pools.detach, Pools.modifyCirc, Pools.setCfx, here, conflux]
  | handOver =>
      by_cases here : a = c <;>
        simp [Pools.handOver, Pools.modifyCirc, Pools.setCfx, Pools.setLinked, Pools.setUnlinked, here, conflux]

theorem Closes.freed (closes : Closes d c full d' frames) (a : CircId) : (d'.circs a).freed = (d.circs a).freed :=
  closes.field Circ.freed (fun _ => rfl) (fun _ => rfl) a

theorem Relay.agrees (h : Relay d) : Agrees d := by
  intro c id x u _ _ found
  rw [h.empty] at found
  cases found

theorem Relay.ending (h : Relay d) : Ending d where
  owned := h.owned
  agrees := h.agrees
  absent c gone := by
    rcases gone with unborn | freed
    · exact (h.unborn c unborn).1
    · exact h.freed c freed
  keys n u found := by
    rw [h.empty] at found
    cases found

theorem Relay.mayLaunch (h : Relay d) : d.mayLaunch = false := by
  rw [Pools.mayLaunch, h.side]
  rfl

theorem Relay.mono (h : Relay d) (owned : Owned d') (empty : ∀ n, d'.unlinked n = none)
    (circs : ∀ a, (∀ i, (d'.circs a).conflux = some i → (d.circs a).conflux = some i) ∧
      (d'.circs a).pendingNonce = none ∧ (d'.circs a).freed = (d.circs a).freed ∧
      ((d'.circs a).marked = true → (d.circs a).marked = true ∨ a ∈ d.global))
    (global : d'.global = d.global) (side : d'.side = d.side) : Relay d' := by
  have idle (a : CircId) (was : (d.circs a).conflux = none) : (d'.circs a).conflux = none := by
    rw [Option.eq_none_iff_forall_ne_some]
    intro i holds
    have before := (circs a).1 i holds
    rw [was] at before
    cases before
  refine ⟨owned, empty, fun a => (circs a).2.1, fun a freed => ?_, fun a absent => ?_, side.trans h.side⟩
  · rw [(circs a).2.2.1] at freed
    exact idle a (h.freed a freed)
  · rw [global] at absent
    obtain ⟨was, unmarked, unfreed⟩ := h.unborn a absent
    refine ⟨idle a was, ?_, (circs a).2.2.1.trans unfreed⟩
    rw [← Bool.not_eq_true]
    intro marked
    rcases (circs a).2.2.2 marked with old | born
    · rw [unmarked] at old
      cases old
    · exact absent born

theorem Closes.ready (closes : Closes (d.mark c) c full d' frames) (h : Relay d) : ∀ f ∈ frames, f.Ready d' := by
  have barred : (d.mark c).mayLaunch = false := h.mayLaunch
  rcases closes.leaves with rfl | ⟨m, v, rfl, launches, -⟩ | ⟨i, y, -, -, rfl | rfl⟩
  · simp
  · rw [barred] at launches
    cases launches
  · simp [Frame.Ready]
  · simp [Frame.Ready]

theorem Closes.relay (closes : Closes (d.mark c) c full d' frames) (h : Relay d) (born : c ∈ d.global) : Relay d' := by
  have marks : Owned (d.mark c) := modifyCirc_owned h.owned rfl
  have same (a : CircId) : ((d.mark c).circs a).conflux = (d.circs a).conflux ∧
      ((d.mark c).circs a).pendingNonce = none ∧ ((d.mark c).circs a).freed = (d.circs a).freed ∧
      (((d.mark c).circs a).marked = true → (d.circs a).marked = true ∨ a = c) := by
    by_cases here : a = c
    · subst here
      simp [Pools.mark, Pools.modifyCirc, h.idle]
    · simp [Pools.mark, Pools.modifyCirc, here, h.idle]
  refine h.mono (closes.owned marks) (fun m => ?_) (fun a => ?_) closes.untouched.2.1 closes.untouched.1
  · cases closes with
    | nothing | detach | keep => exact h.empty m
    | dropLeg pending found =>
        rw [(same c).2.1] at pending
        cases pending
    | dropSet pending found =>
        rw [(same c).2.1] at pending
        cases pending
    | @handOver _ x _ _ _ _ _ _ found =>
        have gone : (d.mark c).unlinked x.nonce = none := h.empty x.nonce
        rw [gone] at found
        cases found
  · obtain ⟨marked, conflux, pending, -⟩ := closes.circs a
    refine ⟨fun i holds => (same a).1 ▸ conflux i holds, ?_, (closes.freed a).trans (same a).2.2.1, fun isMarked => ?_⟩
    · rw [Option.eq_none_iff_forall_ne_some]
      intro m waits
      have before := pending m waits
      rw [(same a).2.1] at before
      cases before
    · rw [marked] at isMarked
      rcases (same a).2.2.2 isMarked with old | rfl
      · exact .inl old
      · exact .inr born

theorem Closes.refused (closes : Closes (d.mark c) c full d' frames) (owned : Owned d)
    (pending : (d.circs c).pendingNonce = some n) (found : d.unlinked n = some u)
    (legs : u.legs = [{ circ := c, linked := true }]) :
    frames = [] ∧ (∀ m, d'.unlinked m = if m = n then none else d.unlinked m) ∧ (d'.circs c).pendingNonce = none ∧
      d'.linked = d.linked ∧ ∀ i y, d'.cfxs i = some y → d.cfxs i = some y := by
  have waits : ((d.mark c).circs c).pendingNonce = some n := by
    simpa [Pools.mark, Pools.modifyCirc] using pending
  have alone : remove (fun leg : Leg => leg.circ = c) u.legs = [] := by
    rw [legs]
    simp [remove, del]
  have isLeg : c ∈ u.circs := by
    rw [Unlinked.circs, legs]
    exact List.mem_singleton_self c
  have linked {pools : Pools} (idle : (pools.circs c).pendingNonce = none) (same : pools = d.mark c) : False := by
    rw [same, waits] at idle
    cases idle
  cases closes with
  | nothing _ gone =>
      have absent : d.unlinked n = none := gone n waits
      rw [found] at absent
      cases absent
  | @dropLeg m v other there more =>
      obtain rfl := Option.some.inj (waits.symm.trans other)
      obtain rfl := Option.some.inj (found.symm.trans there)
      exact absurd alone more
  | @dropSet m v x other there live last =>
      obtain rfl := Option.some.inj (waits.symm.trans other)
      obtain rfl := Option.some.inj (found.symm.trans there)
      obtain ⟨y, isLive, nonce, -⟩ := owned.unlinked n u found
      obtain rfl : y = x := Option.some.inj (isLive.symm.trans live)
      refine ⟨rfl, fun m => ?_, ?_, by rw [deleteSet_linked, clearPending_linked]; rfl, fun i z isLive => ?_⟩
      · rw [deleteSet_unlinked, nonce, clearPending_unlinked]
        rfl
      · rw [deleteSet_circs, Pools.clearPending, if_pos isLeg]
        simp [Pools.modifyCirc]
      · have before := deleteSet_cfxs isLive
        rw [clearPending_cfxs] at before
        exact before
  | detach idle => exact (linked idle rfl).elim
  | handOver idle => exact (linked idle rfl).elim
  | keep idle => exact (linked idle rfl).elim

theorem getOrCreate_legs (absent : d.unlinked n = none) : (d.unlinkedGetOrCreate n).2.legs = [] := by
  unfold Pools.unlinkedGetOrCreate
  rw [absent]
  dsimp only
  split <;> rfl

structure Joined (d e : Pools) (c : CircId) (n : Nonce) (u : Unlinked) : Prop where
  owned : Owned e
  found : e.unlinked n = some u
  legs : u.legs = [{ circ := c, linked := true }]
  others : ∀ m, m ≠ n → e.unlinked m = none
  circs : e.circs = Function.update d.circs c { d.circs c with pendingNonce := some n }
  global : e.global = d.global
  side : e.side = d.side
  linked : e.linked = d.linked
  objects : ∀ i y, e.cfxs i = some y → d.cfxs i = some y ∨ i = d.nextCfx ∧ y.legs = []
  shares : ∀ i, d.linked n = some i → u.cfx = i

theorem Joined.only (joined : Joined d d' c n u) : u.circs = [c] := by
  rw [Unlinked.circs, joined.legs]
  rfl

theorem Joined.pending (joined : Joined d d' c n u) : (d'.circs c).pendingNonce = some n := by
  rw [joined.circs, Function.update_self]

theorem Joined.refused {e : Pools} (joined : Joined d e c n u) (h : Relay d) (alive : (d.circs c).marked = false)
    (born : c ∈ d.global) (ok : e.markForClose c full = .ok (d', frames)) : Relay d' ∧ frames = [] := by
  have unmarked : (e.circs c).marked = false := by rw [joined.circs, Function.update_self, alive]
  unfold Pools.markForClose at ok
  rw [if_neg (by rw [unmarked]; exact Bool.false_ne_true)] at ok
  have closes : Closes (e.mark c) c full d' frames := circuitHasClosed_inv ok
  obtain ⟨none, sets, pending, -, -⟩ := closes.refused joined.owned joined.pending joined.found joined.legs
  have marks : Owned (e.mark c) := modifyCirc_owned joined.owned rfl
  refine ⟨h.mono (closes.owned marks) (fun m => ?_) (fun a => ?_) (closes.untouched.2.1.trans joined.global)
    (closes.untouched.1.trans joined.side), none⟩
  · rw [sets]
    split
    · rfl
    · exact joined.others m ‹_›
  · obtain ⟨marked, conflux, -, other⟩ := closes.circs a
    have freed := closes.freed a
    by_cases here : a = c
    · subst here
      refine ⟨fun i holds => ?_, pending, ?_, fun _ => .inr born⟩
      · simpa [Pools.mark, Pools.modifyCirc, joined.circs] using conflux i holds
      · simpa [Pools.mark, Pools.modifyCirc, joined.circs] using freed
    · have same : d'.circs a = d.circs a := by
        rw [other here]
        simp [Pools.mark, Pools.modifyCirc, joined.circs, here]
      rw [same]
      exact ⟨fun i holds => holds, h.idle a, rfl, fun marked => .inl marked⟩

theorem Joined.finalized {e : Pools} (joined : Joined d e c n u) (h : Relay d) (idle : (d.circs c).conflux = none)
    (unfreed : (d.circs c).freed = false) (born : c ∈ d.global) (live : e.cfxs u.cfx = some x) : Relay (e.finalizeSet u x) := by
  obtain ⟨y, isLive, nonce, -⟩ := joined.owned.unlinked n u joined.found
  obtain rfl : y = x := Option.some.inj (isLive.symm.trans live)
  have unheld (a : CircId) (mem : a ∈ u.circs) : (e.circs a).conflux = none := by
    rw [joined.only, List.mem_singleton] at mem
    rw [mem, joined.circs, Function.update_self, idle]
  have owned := finalizeSet_owned joined.owned joined.found live (by rw [joined.only]; exact List.nodup_singleton c)
    unheld (by rw [joined.only]; exact List.cons_ne_nil c [])
  have circs (a : CircId) (other : a ≠ c) : (e.finalizeSet u y).circs a = d.circs a := by
    simp only [Pools.finalizeSet]
    rw [if_neg (by rw [joined.only, List.mem_singleton]; exact other), joined.circs, Function.update_of_ne other]
  have leg : ((e.finalizeSet u y).circs c).pendingNonce = none ∧ ((e.finalizeSet u y).circs c).freed = false := by
    simp only [Pools.finalizeSet]
    rw [if_pos (by rw [joined.only]; exact List.mem_singleton_self c), joined.circs, Function.update_self]
    exact ⟨rfl, unfreed⟩
  refine ⟨owned, fun m => ?_, fun a => ?_, fun a freed => ?_, fun a absent => ?_, joined.side.trans h.side⟩
  · simp only [Pools.finalizeSet, Function.update_apply, nonce]
    split
    · rfl
    · exact joined.others m ‹_›
  · by_cases here : a = c
    · rw [here, leg.1]
    · rw [circs a here, h.idle]
  · by_cases here : a = c
    · rw [here, leg.2] at freed
      cases freed
    · rw [circs a here] at freed ⊢
      exact h.freed a freed
  · have there : a ∉ d.global := joined.global ▸ absent
    have other : a ≠ c := fun here => there (here ▸ born)
    rw [circs a other]
    exact h.unborn a there

theorem getOrCreate_shares (absent : d.unlinked n = none) (linked : d.linked n = some id) :
    (d.unlinkedGetOrCreate n).2.cfx = id := by
  unfold Pools.unlinkedGetOrCreate
  rw [absent]
  dsimp only
  rw [linked]

theorem processLink_inv (h : Relay d) (ok : d.processLink p c n valid = .ok (d', frames)) :
    d' = d ∧ frames = [.markForClose c] ∨ (d.circs c).conflux = none ∧ ∃ e u, Joined d e c n u ∧
      ((∃ more, e.markForClose c false = .ok (d', more) ∧ (frames = more ∨ frames = more ++ [.markLinkedForClose n])) ∨
        ∃ x, e.cfxs u.cfx = some x ∧ d' = e.finalizeSet u x ∧ frames = []) := by
  unfold Pools.processLink at ok
  split at ok
  · obtain ⟨rfl, rfl⟩ := Prod.mk.inj (Except.ok.inj ok)
    exact .inl ⟨rfl, rfl⟩
  · rename_i plain
    have idle : (d.circs c).conflux = none := by
      cases holds : (d.circs c).conflux with
      | none => rfl
      | some id => simp [holds] at plain
    have owned := owned_link h.owned n c
    have legs := getOrCreate_legs (h.empty n)
    have others (m : Nonce) (other : m ≠ n) := (getOrCreate_unlinked d other).trans (h.empty m)
    have objects := getOrCreate_objects d n
    have shares {i : CfxId} (found : d.linked n = some i) := getOrCreate_shares (h.empty n) found
    obtain ⟨circs, linked, side, global⟩ := getOrCreate_frame d n
    cases created : d.unlinkedGetOrCreate n with
    | mk d₁ u =>
        simp only [created] at owned legs others objects shares circs linked side global ok
        rw [legs, List.nil_append] at owned ok
        have made (i : CfxId) (y : Cfx) (live : d₁.cfxs i = some y) : d.cfxs i = some y ∨ i = d.nextCfx ∧ y.legs = [] := by
          rcases objects i y live with old | ⟨here, -, -, rfl⟩
          · exact .inl old
          · exact .inr ⟨here, rfl⟩
        have joined : Joined d _ c n _ := ⟨owned, Function.update_self .., rfl,
          fun m other => (Function.update_of_ne other ..).trans (others m other), by rw [← circs]; rfl, global, side, linked,
          made, fun i found => shares found⟩
        obtain ⟨x, deref, ok⟩ := bind_eq_ok ok
        refine .inr ⟨idle, _, _, joined, ?_⟩
        split at ok
        · exact .inl ⟨_, ok, .inl rfl⟩
        · split at ok
          · obtain ⟨⟨d₂, more⟩, refused, ok⟩ := bind_eq_ok ok
            obtain ⟨rfl, rfl⟩ := Prod.mk.inj (Except.ok.inj ok)
            exact .inl ⟨more, refused, .inr rfl⟩
          · split at ok
            · rename_i unlinked
              simp at unlinked
            · obtain ⟨rfl, rfl⟩ := Prod.mk.inj (Except.ok.inj ok)
              exact .inr ⟨x, getCfx_eq deref, rfl, rfl⟩

theorem Frees.relay (frees : Frees d c d') (h : Relay d) (born : c ∈ d.global) : Relay d' := by
  have circs (e : Pools) (same : e.circs = d.circs) (a : CircId) :
      ((e.forget c).circs a).pendingNonce = none ∧ (a ≠ c → (e.forget c).circs a = d.circs a) ∧
        ((e.forget c).circs c).conflux = none := by
    by_cases here : a = c <;> simp [Pools.forget, Pools.modifyCirc, here, same, h.idle]
  have made (e : Pools) (same : e.circs = d.circs) (global : e.global = d.global) (side : e.side = d.side)
      (empty : ∀ m, e.unlinked m = none) (owned : Owned (e.forget c)) : Relay (e.forget c) := by
    refine ⟨owned, empty, fun a => (circs e same a).1, fun a freed => ?_, fun a absent => ?_, side.trans h.side⟩
    · by_cases here : a = c
      · rw [here]
        exact (circs e same c).2.2
      · rw [(circs e same a).2.1 here] at freed ⊢
        exact h.freed a freed
    · have there : a ∉ d.global := global ▸ absent
      rw [(circs e same a).2.1 fun here => there (here ▸ born)]
      exact h.unborn a there
  have owned := frees.owned h.owned h.agrees
  cases frees with
  | plain => exact made d rfl rfl rfl h.empty owned
  | leg => exact made _ rfl rfl rfl h.empty owned
  | last => exact made _ rfl rfl rfl h.empty owned
  | pass _ _ _ _ _ _ found =>
      rw [h.empty] at found
      cases found

theorem Relay.flags (h : Relay d) (pressure shuttingDown : Bool) :
    Relay { d with pressure := pressure, shuttingDown := shuttingDown } :=
  ⟨{ h.owned with }, h.empty, h.idle, h.freed, h.unborn, h.side⟩

theorem Relay.born (h : Relay d) (more : List CircId) : Relay { d with global := more ++ d.global } :=
  ⟨{ h.owned with }, h.empty, h.idle, h.freed, fun a absent => h.unborn a fun mem => absent (List.mem_append_right more mem), h.side⟩

inductive Served (d : Pools) : Event → Pools → Prop
  | flags {event : Event} (pressure shuttingDown : Bool) :
      Served d event { d with pressure := pressure, shuttingDown := shuttingDown }
  | born {event : Event} (more : List CircId) : Served d event { d with global := more ++ d.global }
  | mark {event : Event} {c : CircId} {full : Bool} {frames : List Frame} {d' : Pools} (born : c ∈ d.global)
      (alive : (d.circs c).marked = false) (closes : Closes (d.mark c) c full d' frames) : Served d event d'
  | teardown {event : Event} {id : CfxId} {x : Cfx} (live : d.cfxs id = some x) :
      Served d event (d.setCfx id (some { x with inFullTeardown := true }))
  | refuse {event : Event} {more : List CircId} {e d' : Pools} {c : CircId} {n : Nonce} {u : Unlinked}
      (joined : Joined { d with global := more ++ d.global } e c n u) (born : c ∈ more ++ d.global)
      (alive : (d.circs c).marked = false) (refused : e.markForClose c false = .ok (d', [])) : Served d event d'
  | link {event : Event} {more : List CircId} {e : Pools} {c : CircId} {n : Nonce} {u : Unlinked} {x : Cfx}
      (joined : Joined { d with global := more ++ d.global } e c n u) (born : c ∈ more ++ d.global)
      (idle : (d.circs c).conflux = none) (unfreed : (d.circs c).freed = false) (live : e.cfxs u.cfx = some x) :
      Served d event (e.finalizeSet u x)
  | free {c : CircId} {full : Bool} {d' : Pools} (born : c ∈ d.global) (frees : Frees d c d') : Served d (.free c full) d'

theorem Served.refl (d : Pools) (e : Event) : Served d e d := .flags d.pressure d.shuttingDown

theorem Served.relay {e : Event} (served : Served d e d') (h : Relay d) : Relay d' := by
  cases served with
  | flags pressure shuttingDown => exact h.flags pressure shuttingDown
  | born more => exact h.born more
  | mark born _ closes => exact closes.relay h born
  | teardown live => exact ⟨setCfx_owned h.owned live rfl rfl, h.empty, h.idle, h.freed, h.unborn, h.side⟩
  | refuse joined born alive refused => exact (joined.refused (h.born _) alive born refused).1
  | link joined born idle unfreed live => exact joined.finalized (h.born _) idle unfreed born live
  | free born frees => exact frees.relay h born

theorem Frame.Ready.mono {frame : Frame} (ready : frame.Ready d) (global : ∀ a ∈ d.global, a ∈ d'.global) :
    frame.Ready d' := by
  cases frame with
  | markForClose a => exact global a ready
  | markAllForClose | markLinkedForClose | afterClose => trivial
  | launchLeg | establish | addLeg | setPurpose => exact ready.elim

variable {s t : State} {e : Event} {frame : Frame} {rest : List Frame}

theorem resume_served {outcome : Outcome} (stack : ∀ f ∈ s.stack, f.Ready s.pools)
    (next : ∀ d frames, outcome = .ok (d, frames) →
      Served s.pools e d ∧ (∀ f ∈ frames, f.Ready d) ∧ ∀ f ∈ rest, f.Ready d) :
    Served s.pools e (s.resume rest outcome).pools ∧
      ∀ f ∈ (s.resume rest outcome).stack, f.Ready (s.resume rest outcome).pools := by
  cases outcome with
  | error fault => exact ⟨.refl _ _, stack⟩
  | ok result =>
      obtain ⟨d, frames⟩ := result
      obtain ⟨served, new, old⟩ := next d frames rfl
      exact ⟨served, fun f mem => (List.mem_append.mp mem).elim (new f) (old f)⟩

theorem continueWith_served (h : Relay s.pools) (stack : ∀ f ∈ s.stack, f.Ready s.pools) (top : s.stack = frame :: rest)
    (stepped : s.continueWith p rest frame e = some t) :
    Served s.pools e t.pools ∧ ∀ f ∈ t.stack, f.Ready t.pools := by
  have ready : frame.Ready s.pools := stack frame (by rw [top]; exact .head _)
  have older {d : Pools} (global : ∀ a ∈ s.pools.global, a ∈ d.global) : ∀ f ∈ rest, f.Ready d := by
    intro f mem
    have old : f.Ready s.pools := stack f (by rw [top]; exact .tail _ mem)
    exact old.mono global
  cases frame with
  | markForClose c =>
      cases e with
      | run full =>
          obtain rfl := Option.some.inj stepped
          refine resume_served stack fun d frames ok => ?_
          unfold Pools.markForClose at ok
          split at ok
          · obtain ⟨rfl, rfl⟩ := Prod.mk.inj (Except.ok.inj ok)
            exact ⟨.refl _ _, by simp, older fun a mem => mem⟩
          · rename_i alive
            have closes : Closes (s.pools.mark c) c full d frames := circuitHasClosed_inv ok
            refine ⟨.mark ready (by simpa using alive) closes, closes.ready h, older fun a mem => ?_⟩
            rw [closes.untouched.2.1]
            exact mem
      | _ => cases stepped
  | markAllForClose n =>
      cases e with
      | run full =>
          obtain rfl := Option.some.inj stepped
          refine resume_served stack fun d frames ok => ?_
          unfold Pools.markAllForClose at ok
          rw [h.empty] at ok
          obtain ⟨rfl, rfl⟩ := Prod.mk.inj (Except.ok.inj ok)
          exact ⟨.refl _ _, by simp [Frame.Ready], older fun a mem => mem⟩
      | _ => cases stepped
  | markLinkedForClose n =>
      cases e with
      | run full =>
          obtain rfl := Option.some.inj stepped
          refine resume_served stack fun d frames ok => ?_
          unfold Pools.markLinkedForClose at ok
          split at ok
          · obtain ⟨rfl, rfl⟩ := Prod.mk.inj (Except.ok.inj ok)
            exact ⟨.refl _ _, by simp, older fun a mem => mem⟩
          · rename_i id linked
            obtain ⟨x, deref, ok⟩ := bind_eq_ok ok
            have live := getCfx_eq deref
            split at ok
            · obtain ⟨rfl, rfl⟩ := Prod.mk.inj (Except.ok.inj ok)
              exact ⟨.refl _ _, by simp, older fun a mem => mem⟩
            · obtain ⟨rfl, rfl⟩ := Prod.mk.inj (Except.ok.inj ok)
              refine ⟨.teardown live, fun f mem => ?_, older fun a mem => mem⟩
              obtain ⟨a, leg, rfl⟩ := List.mem_map.mp mem
              have holds := (h.owned.legs id x live).2 a leg
              by_contra absent
              have none := (h.unborn a absent).1
              rw [none] at holds
              cases holds
      | _ => cases stepped
  | afterClose c n =>
      cases e with
      | run full =>
          obtain rfl := Option.some.inj stepped
          refine resume_served stack fun d frames ok => ?_
          unfold Pools.afterClose at ok
          rw [h.mayLaunch] at ok
          obtain ⟨rfl, rfl⟩ := Prod.mk.inj (Except.ok.inj ok)
          exact ⟨.refl _ _, by simp, older fun a mem => mem⟩
      | _ => cases stepped
  | launchLeg | establish | addLeg | setPurpose => exact ready.elim

theorem processLink_served {d₀ : Pools} (event : Event) (more : List CircId) (h : Relay d₀) (enters : d = { d₀ with global := more ++ d₀.global })
    (born : c ∈ d.global) (alive : (d₀.circs c).marked = false) (unfreed : (d₀.circs c).freed = false)
    (ok : d.processLink p c n valid = .ok (d', frames)) : Served d₀ event d' ∧ ∀ f ∈ frames, f.Ready d' := by
  subst enters
  rcases processLink_inv (h.born more) ok with ⟨rfl, rfl⟩ | ⟨idle, e, u, joined, ⟨more, refused, next⟩ | ⟨x, live, rfl, rfl⟩⟩
  · exact ⟨.born more, by simpa [Frame.Ready] using born⟩
  · obtain ⟨-, rfl⟩ := joined.refused (h.born _) alive born refused
    refine ⟨.refuse joined born alive refused, ?_⟩
    rcases next with rfl | rfl <;> simp [Frame.Ready]
  · exact ⟨.link joined born idle unfreed live, by simp⟩

theorem call_served (h : Relay s.pools) (running : s.phase = .running) (idle : s.stack = []) (inside : e ≠ .exit)
    (stepped : s.call p e = some t) : Served s.pools e t.pools ∧ ∀ f ∈ t.stack, f.Ready t.pools := by
  have stack : ∀ f ∈ s.stack, f.Ready s.pools := by
    rw [idle]
    simp
  have opened {c : CircId} (isOpen : s.pools.isOpen c = true) :
      c ∈ s.pools.global ∧ (s.pools.circs c).marked = false ∧ (s.pools.circs c).freed = false := by
    simp only [Pools.isOpen, Bool.and_eq_true, decide_eq_true_eq, Bool.not_eq_true'] at isOpen
    exact ⟨isOpen.1.1, isOpen.1.2, isOpen.2⟩
  cases e with
  | launchSet | add | repurpose | recvLinked => simp [State.call, h.side] at stepped
  | close c =>
      simp only [State.call] at stepped
      split at stepped
      · rename_i guard
        obtain rfl := Option.some.inj stepped
        exact ⟨.refl _ _, by simpa [Frame.Ready] using (opened guard.2).1⟩
      · cases stepped
  | closeSet n =>
      simp only [State.call, if_pos running] at stepped
      obtain rfl := Option.some.inj stepped
      exact ⟨.refl _ _, by simp [Frame.Ready]⟩
  | recvLink c n valid =>
      simp only [State.call] at stepped
      split at stepped
      · rename_i guard
        obtain rfl := Option.some.inj stepped
        refine resume_served stack fun d frames ok => ?_
        split at ok
        · rename_i there
          obtain ⟨-, alive, unfreed⟩ := opened (guard.2.2.resolve_left fun absent => absent there)
          obtain ⟨served, ready⟩ := processLink_served _ [] h rfl there alive unfreed ok
          exact ⟨served, ready, by simp⟩
        · rename_i absent
          obtain ⟨-, alive, unfreed⟩ := h.unborn c absent
          obtain ⟨served, ready⟩ := processLink_served _ [c] h rfl (.head _) alive unfreed ok
          exact ⟨served, ready, by simp⟩
      · cases stepped
  | free c full =>
      simp only [State.call] at stepped
      split at stepped
      · rename_i guard
        obtain rfl := Option.some.inj stepped
        cases freed : s.pools.circuitAboutToFree c full with
        | error fault => exact ⟨.refl _ _, stack⟩
        | ok d =>
            refine ⟨.free guard.1 (circuitAboutToFree_inv freed), fun f mem => ?_⟩
            have none : f ∈ s.stack := mem
            rw [idle] at none
            cases none
      · cases stepped
  | pressure under =>
      simp only [State.call, if_pos running] at stepped
      obtain rfl := Option.some.inj stepped
      exact ⟨.flags under s.pools.shuttingDown, by simp [idle]⟩
  | shutdown =>
      obtain rfl := Option.some.inj stepped
      exact ⟨.flags s.pools.pressure true, by simp [idle]⟩
  | exit => exact absurd rfl inside
  | poolFreeAll => simp [State.call, running] at stepped
  | run | build | oom | buildFails | built => cases stepped

end Relay
end TorJet.Pool
