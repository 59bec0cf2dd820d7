import TorJet.Pool.Prebuild
import TorJet.Pool.Relay

/-!
# Each `conflux_t` has one owner

No freed object is used, on a client or on a relay, and when the process has freed its pools no object is left.
-/

namespace TorJet.Pool
open Smartlist Base

/-! ## Circuits that are freed -/

def Gone (d : Pools) : Prop :=
  ∀ c, (d.circs c).freed = true → (d.circs c).marked = true ∧ (d.circs c).conflux = none

section Gone
variable {p : Params} {d d' : Pools} {stack stack' frames : List Frame} {c : CircId} {e : Event} {full : Bool}

theorem Move.gone (move : Move p d stack e d' stack') (sound : Sound d stack) (gone : Gone d) : Gone d' := by
  intro a freed
  have modified {d₀ : Pools} {f : Circ → Circ} {b : CircId} (circs : d₀.circs = d.circs)
      (old : ∀ y, (f y).freed = y.freed) (marked : ∀ y : Circ, y.marked = true → (f y).marked = true)
      (idle : ∀ y : Circ, y.conflux = none → (f y).conflux = none) (freed : ((d₀.modifyCirc b f).circs a).freed = true) :
      ((d₀.modifyCirc b f).circs a).marked = true ∧ ((d₀.modifyCirc b f).circs a).conflux = none := by
    by_cases here : a = b
    · subst here
      simp only [Pools.modifyCirc, Function.update_self, circs, old] at freed ⊢
      exact ⟨marked _ (gone a freed).1, idle _ (gone a freed).2⟩
    · simp only [Pools.modifyCirc, Function.update_of_ne here, circs] at freed ⊢
      exact gone a freed
  have closed {c : CircId} {full : Bool} {frames : List Frame} {d₀ : Pools} (closes : Closes d₀ c full d' frames)
      (before : (d₀.circs a).freed = true → (d₀.circs a).marked = true ∧ (d₀.circs a).conflux = none) :
      (d'.circs a).marked = true ∧ (d'.circs a).conflux = none := by
    obtain ⟨marked, idle⟩ := before (closes.freed a ▸ freed)
    refine ⟨(closes.circs a).1.trans marked, ?_⟩
    rw [Option.eq_none_iff_forall_ne_some]
    intro i holds
    have before := (closes.circs a).2.1 i holds
    rw [idle] at before
    cases before
  cases move with
  | launchSet | add | close | closeSet | answer | flags | skip | markAll | spare | teardown | settle | refill | oom |
    buildFails | built | forget | register => exact gone a freed
  | repurpose isOpen closes => exact closed closes (gone a)
  | mark alive closes =>
      exact closed closes (modified (show d.circs = d.circs from rfl) (fun _ => rfl) (fun _ _ => rfl) (fun _ idle => idle))
  | @finalize b _ _ n u x pending found isLeg live =>
      simp only [Pools.finalizeSet] at freed ⊢
      by_cases leg : a ∈ (u.answer b).circs
      · rw [if_pos leg] at freed
        rw [answer_circs] at leg
        have alive := sound.alive n u found a leg
        rw [(gone a freed).1] at alive
        cases alive
      · rw [if_neg leg] at freed ⊢
        exact gone a freed
  | @free b full _ isMarked frees =>
      have forgot (e : Pools) (same : e.circs = d.circs) (freed : ((e.forget b).circs a).freed = true) :
          ((e.forget b).circs a).marked = true ∧ ((e.forget b).circs a).conflux = none := by
        by_cases here : a = b
        · subst here
          simpa [Pools.forget, Pools.modifyCirc, same] using isMarked
        · simp only [Pools.forget, Pools.modifyCirc, Function.update_of_ne here, same] at freed ⊢
          exact gone a freed
      cases frees <;> exact forgot _ rfl freed
  | deleteEmpty =>
      rw [deleteSet_circs] at freed ⊢
      exact gone a freed
  | @rebuild b n _ _ id x _ unlinked holds isLive rebuilt =>
      obtain ⟨circs, -, -, -⟩ := getOrCreate_frame d n
      rcases rebuild_inv rebuilt with ⟨u, -, -, rfl⟩ | ⟨d₁, u, created, -, rfl⟩
      · exact modified rfl (fun _ => rfl) (fun _ marked => marked) (fun _ _ => rfl) freed
      · simp only [created] at circs
        exact modified circs (fun _ => rfl) (fun _ marked => marked) (fun _ _ => rfl) freed
  | @refuse n _ _ _ _ u x unborn created =>
      obtain ⟨circs, -, -, -⟩ := getOrCreate_frame d n
      simp only [created] at circs
      rw [circs] at freed ⊢
      exact gone a freed
  | @launch n b path rest frames d₁ u x _ unborn created =>
      obtain ⟨circs, -, -, -⟩ := getOrCreate_frame d n
      simp only [created] at circs
      by_cases here : a = b
      · subst here
        simp [Pools.newCircuit, Circ.plain] at freed
      · simp only [Pools.newCircuit, Function.update_of_ne here] at freed ⊢
        change (d₁.circs a).freed = true at freed
        change (d₁.circs a).marked = true ∧ (d₁.circs a).conflux = none
        rw [circs] at freed ⊢
        exact gone a freed
  | setPurpose => exact modified rfl (fun _ => rfl) (fun _ marked => marked) (fun _ idle => idle) freed

end Gone

/-! ## Runs -/

structure State.Single (s : State) : Prop where
  clean : s.Clean
  linked : ∀ n id, s.pools.linked n = some id → (s.pools.cfxs id).isSome
  unlinked : ∀ n u, s.pools.unlinked n = some u → (s.pools.cfxs u.cfx).isSome
  circuits : ∀ c id, (s.pools.circs c).conflux = some id → (s.pools.cfxs id).isSome
  owner : ∀ id, (s.pools.cfxs id).isSome →
    (∃ c, (s.pools.circs c).conflux = some id) ∨ ∃ n u, s.pools.unlinked n = some u ∧ u.cfx = id
  freed : s.phase = .done → ∀ id, s.pools.cfxs id = none

inductive State.Tidy (s : State) : Prop
  | client (running : s.phase = .running) (side : s.pools.side = .client) (sound : Sound s.pools s.stack) (gone : Gone s.pools)
  | relay (running : s.phase = .running) (relay : Relay s.pools) (ready : ∀ f ∈ s.stack, f.Ready s.pools)
  | exiting (phase : s.phase = .exiting) (idle : s.stack = []) (ending : Ending s.pools)
  | done (phase : s.phase = .done) (idle : s.stack = []) (owned : Owned s.pools) (none : ∀ id, s.pools.cfxs id = none)

section Runs
variable {p : Params} {s t : State} {e : Event}

theorem Sound.agrees {d : Pools} {stack : List Frame} (h : Sound d stack) : Agrees d := by
  intro c id x u holds live found
  obtain ⟨y, isLive, nonce, -⟩ := h.neat.owned.unlinked x.nonce u found
  exact h.neat.unique u.cfx id y x isLive live nonce

theorem Sound.ending {d : Pools} (h : Sound d []) (gone : Gone d) : Ending d where
  owned := h.neat.owned
  agrees := h.agrees
  absent c was := by
    rcases was with unborn | freed
    · exact (h.neat.created c unborn).1
    · exact (gone c freed).2
  keys n u found := by
    obtain ⟨x, live, nonce, -⟩ := h.neat.owned.unlinked n u found
    exact nonce ▸ h.neat.keys u.cfx x live

theorem State.Tidy.owned (h : s.Tidy) : Owned s.pools := by
  cases h with
  | client _ _ sound => exact sound.neat.owned
  | relay _ relay => exact relay.owned
  | exiting _ _ ending => exact ending.owned
  | done _ _ owned => exact owned

theorem State.Tidy.single (h : s.Tidy) (clean : s.Clean) : s.Single where
  clean := clean
  linked _ _ found := h.owned.linked_live found
  unlinked _ _ found := h.owned.unlinked_live found
  circuits c id holds := h.owned.live c id holds
  owner id live := by
    obtain ⟨x, found⟩ := Option.isSome_iff_exists.mp live
    rcases h.owned.owner id x found with ⟨c, holds⟩ | ⟨u, isUnlinked, same⟩
    · exact .inl ⟨c, holds⟩
    · exact .inr ⟨x.nonce, u, isUnlinked, same⟩
  freed done := by
    cases h with
    | client running | relay running =>
        rw [done] at running
        cases running
    | exiting phase =>
        rw [done] at phase
        cases phase
    | done _ _ _ none => exact none

theorem State.Tidy.fail (h : s.Tidy) (fault : Fault) : State.Tidy { s with fault := some fault } := by
  cases h with
  | client running side sound gone => exact .client running side sound gone
  | relay running relay ready => exact .relay running relay ready
  | exiting phase idle ending => exact .exiting phase idle ending
  | done phase idle owned none => exact .done phase idle owned none

theorem step_clean (tidy : s.Tidy) (kept : keepsSet s = true) (stepped : s.step p e = some t) : t.Clean := by
  have healthy := step_healthy stepped
  unfold State.step at stepped
  split at stepped
  · cases stepped
  · split at stepped
    · rename_i idle
      refine call_clean tidy.owned ?_ (fun exiting => ?_) healthy stepped
      · cases tidy with
        | client _ _ sound => exact sound.agrees
        | relay _ relay => exact relay.agrees
        | exiting _ _ ending => exact ending.agrees
        | done _ _ _ none =>
            intro c id x u _ live
            rw [none] at live
            cases live
      · cases tidy with
        | client running | relay running =>
            rw [exiting] at running
            cases running
        | exiting _ _ ending => exact ending
        | done phase =>
            rw [exiting] at phase
            cases phase
    · rename_i frame rest top
      exact continueWith_clean tidy.owned kept top healthy stepped

@[simp] theorem resume_phase (rest : List Frame) (outcome : Outcome) : (s.resume rest outcome).phase = s.phase := by
  cases outcome <;> rfl

theorem finish_phase (outcome : Except Fault Pools) : (s.finish s.phase outcome).phase = s.phase := by
  cases outcome <;> rfl

theorem step_relay (running : s.phase = .running) (h : Relay s.pools) (ready : ∀ f ∈ s.stack, f.Ready s.pools)
    (stepped : s.step p e = some t) :
    s.stack = [] ∧ t = { s with phase := .exiting } ∨
      t.phase = .running ∧ Served s.pools e t.pools ∧ ∀ f ∈ t.stack, f.Ready t.pools := by
  unfold State.step at stepped
  split at stepped
  · cases stepped
  · split at stepped
    · rename_i idle
      by_cases leaving : e = .exit
      · subst leaving
        simp only [State.call, if_pos running] at stepped
        exact .inl ⟨idle, (Option.some.inj stepped).symm⟩
      · obtain ⟨served, stack⟩ := call_served h running idle leaving stepped
        refine .inr ⟨?_, served, stack⟩
        cases e with
        | launchSet | add | repurpose | recvLinked => simp [State.call, h.side] at stepped
        | exit => exact absurd rfl leaving
        | poolFreeAll => simp [State.call, running] at stepped
        | close =>
            simp only [State.call] at stepped
            split at stepped
            · obtain rfl := Option.some.inj stepped
              exact running
            · cases stepped
        | closeSet | pressure =>
            simp only [State.call, if_pos running] at stepped
            obtain rfl := Option.some.inj stepped
            exact running
        | recvLink =>
            simp only [State.call] at stepped
            split at stepped
            · obtain rfl := Option.some.inj stepped
              rw [resume_phase, running]
            · cases stepped
        | free =>
            simp only [State.call] at stepped
            split at stepped
            · obtain rfl := Option.some.inj stepped
              rw [finish_phase, running]
            · cases stepped
        | shutdown =>
            obtain rfl := Option.some.inj stepped
            exact running
        | run | build | oom | buildFails | built => cases stepped
    · rename_i frame rest top
      refine .inr ⟨?_, continueWith_served h ready top stepped⟩
      have first := ready frame (by rw [top]; exact .head _)
      cases frame with
      | markForClose | markAllForClose | markLinkedForClose | afterClose =>
          cases e with
          | run =>
              obtain rfl := Option.some.inj stepped
              rw [resume_phase, running]
          | _ => cases stepped
      | launchLeg | establish | addLeg | setPurpose => exact first.elim

theorem step_exiting_inv (phase : s.phase = .exiting) (idle : s.stack = []) (stepped : s.step p e = some t) :
    (∃ fault, t = { s with fault := some fault }) ∨
      (∃ c full d, e = .free c full ∧ Frees s.pools c d ∧ t = { s with pools := d }) ∨
      t = { s with pools := { s.pools with shuttingDown := true } } ∨
      ∃ d, (∀ c ∈ s.pools.global, (s.pools.circs c).freed = true) ∧ s.pools.poolFreeAll = .ok d ∧
        t = { s with pools := d, phase := .done } := by
  unfold State.step at stepped
  split at stepped
  · cases stepped
  · rw [idle] at stepped
    cases e with
    | free c full =>
        simp only [State.call] at stepped
        split at stepped
        · obtain rfl := Option.some.inj stepped
          cases freed : s.pools.circuitAboutToFree c full with
          | error fault => exact .inl ⟨fault, rfl⟩
          | ok d => exact .inr (.inl ⟨c, full, d, rfl, circuitAboutToFree_inv freed, rfl⟩)
        · cases stepped
    | shutdown =>
        obtain rfl := Option.some.inj stepped
        exact .inr (.inr (.inl rfl))
    | poolFreeAll =>
        simp only [State.call] at stepped
        split at stepped
        · rename_i guard
          obtain rfl := Option.some.inj stepped
          cases freed : s.pools.poolFreeAll with
          | error fault => exact .inl ⟨fault, rfl⟩
          | ok d => exact .inr (.inr (.inr ⟨d, List.all_eq_true.mp guard.2, rfl, rfl⟩))
        · cases stepped
    | _ => simp [State.call, phase] at stepped

theorem step_tidy (tidy : s.Tidy) (ok : detaches s = true) (stepped : s.step p e = some t) : t.Tidy := by
  cases id tidy with
  | client running side sound gone =>
      rcases step_moves side running stepped with (⟨fault, rfl⟩ | ⟨phase, -, move⟩) | ⟨idle, rfl⟩
      · exact tidy.fail fault
      · exact .client (phase.trans running) (move.side.trans side) (move.sound sound ok) (move.gone sound gone)
      · rw [idle] at sound
        exact .exiting rfl idle (sound.ending gone)
  | relay running relay ready =>
      rcases step_relay running relay ready stepped with ⟨idle, rfl⟩ | ⟨running', served, ready'⟩
      · exact .exiting rfl idle relay.ending
      · exact .relay running' (served.relay relay) ready'
  | exiting phase idle ending =>
      rcases step_exiting_inv phase idle stepped with ⟨fault, rfl⟩ | ⟨c, full, d, -, frees, rfl⟩ | rfl | ⟨d, all, freed, rfl⟩
      · exact tidy.fail fault
      · exact .exiting phase idle (frees.ending ending)
      · exact .exiting phase idle ⟨{ ending.owned with }, ending.agrees, ending.absent, ending.keys⟩
      · obtain ⟨d', freed', owned, -, none⟩ := ending.poolFreeAll all
        obtain rfl := Except.ok.inj (freed.symm.trans freed')
        exact .done rfl idle owned none
  | done phase idle owned none =>
      unfold State.step at stepped
      split at stepped
      · cases stepped
      · rw [idle] at stepped
        cases e with
        | shutdown =>
            obtain rfl := Option.some.inj stepped
            exact .done phase idle { owned with } none
        | _ => simp [State.call, phase] at stepped

theorem initial_tidy (side : Side) : (State.initial side).Tidy := by
  cases side with
  | client => exact .client rfl rfl initial_sound fun c freed => Bool.noConfusion freed
  | exit =>
      refine .relay rfl ⟨{ initial_sound.neat.owned with }, fun _ => rfl, fun _ => rfl, fun _ _ => rfl, fun _ _ => ⟨rfl, rfl, rfl⟩, rfl⟩ ?_
      simp [State.initial]

end Runs
end TorJet.Pool
