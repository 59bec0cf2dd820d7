import TorJet.Pool.Single

/-!
# The pool of linked sets knows the sets of open circuits

On a client no two objects share a nonce. On a relay a nonce may be linked again while a closed circuit of the old set has
yet to be freed.
-/

namespace TorJet.Pool
open Smartlist Base

structure Listed (d : Pools) : Prop where
  inPool : ∀ id x, d.cfxs id = some x → x.legs ≠ [] → d.linked x.nonce = some id
  legs : ∀ c id x, (d.circs c).marked = false → (d.circs c).conflux = some id → d.cfxs id = some x → x.legs ≠ []

def freesOwn (s : State) (e : Event) : Bool :=
  match e with
  | .free c _ =>
      ((s.pools.circs c).conflux.bind s.pools.cfxs).all fun x => !x.legs.isEmpty || (s.pools.linked x.nonce).isNone
  | _ => true

section Listed
variable {p : Params} {d d' e : Pools} {c : CircId} {n : Nonce} {id : CfxId} {u : Unlinked} {x : Cfx} {full : Bool}
  {frames : List Frame}

theorem Listed.mono (h : Listed d)
    (objects : ∀ i y, d'.cfxs i = some y → y.legs ≠ [] → ∃ z, d.cfxs i = some z ∧ z.legs ≠ [] ∧ z.nonce = y.nonce)
    (linked : ∀ i y, d'.cfxs i = some y → y.legs ≠ [] → d.linked y.nonce = some i → d'.linked y.nonce = some i)
    (legs : ∀ a i y, (d'.circs a).marked = false → (d'.circs a).conflux = some i → d'.cfxs i = some y → y.legs ≠ []) :
    Listed d' where
  inPool i y live some := by
    obtain ⟨z, was, more, nonce⟩ := objects i y live some
    exact linked i y live some (nonce ▸ h.inPool i z was more)
  legs := legs

theorem Closes.listed (closes : Closes (d.mark c) c full d' frames) (relay : Relay d) (h : Listed d)
    (alive : (d.circs c).marked = false) : Listed d' := by
  have owned := relay.owned
  have same (a : CircId) : ((d.mark c).circs a).conflux = (d.circs a).conflux := by
    by_cases here : a = c
    · subst here
      simp [Pools.mark, Pools.modifyCirc]
    · simp [Pools.mark, Pools.modifyCirc, here]
  have other {a : CircId} (unmarked : (d'.circs a).marked = false) : a ≠ c ∧ (d.circs a).marked = false := by
    rw [(closes.circs a).1] at unmarked
    by_cases here : a = c
    · subst here
      simp [Pools.mark, Pools.modifyCirc] at unmarked
    · refine ⟨here, ?_⟩
      simpa [Pools.mark, Pools.modifyCirc, here] using unmarked
  have holder {a : CircId} {i : CfxId} (holds : (d'.circs a).conflux = some i) : (d.circs a).conflux = some i :=
    same a ▸ (closes.circs a).2.1 i holds
  have idle : ((d.mark c).circs c).pendingNonce = none := by
    simpa [Pools.mark, Pools.modifyCirc] using relay.idle c
  cases id closes with
  | nothing =>
      exact ⟨h.inPool, fun a i y unmarked holds live => h.legs a i y (other unmarked).2 (holder holds) live⟩
  | dropLeg pending | dropSet pending =>
      rw [idle] at pending
      cases pending
  | @detach id x _ _ holds live more =>
      have live : d.cfxs id = some x := live
      have nonce := cfxDelLeg_nonce x c full
      have some : x.legs ≠ [] := h.legs c id x alive (same c ▸ holds) live
      refine h.mono (fun i y isLive more' => ?_) (fun i y _ _ linked => linked) fun a i y unmarked isHeld isLive => ?_
      · rcases updated_cfx isLive with ⟨rfl, rfl⟩ | ⟨-, was⟩
        · exact ⟨x, live, some, nonce.symm⟩
        · exact ⟨y, was, more', rfl⟩
      · rcases updated_cfx isLive with ⟨rfl, rfl⟩ | ⟨-, was⟩
        · exact more
        · exact h.legs a i y (other unmarked).2 (holder isHeld) was
  | @handOver id x u _ _ _ _ _ found =>
      have gone : (d.mark c).unlinked x.nonce = none := relay.empty x.nonce
      rw [gone] at found
      cases found
  | @keep id x _ _ holds live last =>
      have live : d.cfxs id = some x := live
      have holds : (d.circs c).conflux = some id := same c ▸ holds
      have nonce := cfxDelLeg_nonce x c full
      have listed := h.inPool id x live (h.legs c id x alive holds live)
      have only := cfxDelLeg_last (owned.legs id x live).1 last
      refine h.mono (fun i y isLive more => ?_) (fun i y isLive more linked => ?_) fun a i y unmarked isHeld isLive => ?_
      · rcases updated_cfx isLive with ⟨rfl, rfl⟩ | ⟨-, was⟩
        · exact absurd last more
        · exact ⟨y, was, more, rfl⟩
      · rcases updated_cfx isLive with ⟨rfl, rfl⟩ | ⟨apart, was⟩
        · exact absurd last more
        · simp only [Pools.keep, Pools.setLinked]
          rw [Function.update_of_ne]
          · exact linked
          · intro sameNonce
            rw [sameNonce, nonce, listed] at linked
            exact apart (Option.some.inj linked).symm
      · rcases updated_cfx isLive with ⟨rfl, rfl⟩ | ⟨-, was⟩
        · have leg := owned.held a i x (holder isHeld) live (h.legs c i x alive holds live)
          exact absurd (only a leg) (other unmarked).1
        · exact h.legs a i y (other unmarked).2 (holder isHeld) was

theorem Joined.held (joined : Joined d e c n u) (owned : Owned d) {a : CircId} {i : CfxId} {y : Cfx}
    (holds : (d.circs a).conflux = some i) (live : e.cfxs i = some y) : d.cfxs i = some y := by
  rcases joined.objects i y live with was | ⟨here, -⟩
  · exact was
  · have some := owned.live a i holds
    rw [owned.fresh i here.ge] at some
    cases some

theorem Joined.refused_listed (joined : Joined d e c n u) (relay : Relay d) (h : Listed d)
    (alive : (d.circs c).marked = false) (ok : e.markForClose c full = .ok (d', frames)) : Listed d' := by
  have unmarked : (e.circs c).marked = false := by rw [joined.circs, Function.update_self, alive]
  unfold Pools.markForClose at ok
  rw [if_neg (by rw [unmarked]; exact Bool.false_ne_true)] at ok
  have closes : Closes (e.mark c) c full d' frames := circuitHasClosed_inv ok
  obtain ⟨-, -, -, linked, objects⟩ := closes.refused joined.owned joined.pending joined.found joined.legs
  refine h.mono (fun i y live some => ?_) (fun i y _ _ was => ?_) fun a i y isAlive holds live => ?_
  · rcases joined.objects i y (objects i y live) with was | ⟨-, empty⟩
    · exact ⟨y, was, some, rfl⟩
    · exact absurd empty some
  · rw [linked, joined.linked]
    exact was
  · have other : a ≠ c := by
      rintro rfl
      rw [(closes.circs a).1] at isAlive
      simp [Pools.mark, Pools.modifyCirc] at isAlive
    have same : d'.circs a = d.circs a := by
      rw [(closes.circs a).2.2.2 other]
      simp [Pools.mark, Pools.modifyCirc, joined.circs, other]
    rw [same] at isAlive holds
    exact h.legs a i y isAlive holds (joined.held relay.owned holds (objects i y live))

theorem Joined.finalized_listed (joined : Joined d e c n u) (relay : Relay d) (h : Listed d)
    (live : e.cfxs u.cfx = some x) : Listed (e.finalizeSet u x) := by
  obtain ⟨y, isLive, nonce, -⟩ := joined.owned.unlinked n u joined.found
  obtain rfl : y = x := Option.some.inj (isLive.symm.trans live)
  have grown : y.legs ++ (drained u.legs).map (·.circ) ≠ [] := by
    rw [joined.legs]
    simp [drained, drainOrder]
  have object {i : CfxId} {z : Cfx} (isLive : (e.finalizeSet u y).cfxs i = some z) :
      i = u.cfx ∧ z.nonce = n ∧ z.legs ≠ [] ∨ i ≠ u.cfx ∧ e.cfxs i = some z := by
    rcases updated_cfx isLive with ⟨here, rfl⟩ | old
    · exact .inl ⟨here, nonce, grown⟩
    · exact .inr old
  constructor
  · intro i z isLive some
    simp only [Pools.finalizeSet]
    rcases object isLive with ⟨rfl, same, -⟩ | ⟨apart, old⟩
    · rw [nonce, same, Function.update_self]
    · rcases joined.objects i z old with was | ⟨-, empty⟩
      · have listed := h.inPool i z was some
        rw [Function.update_of_ne, joined.linked]
        · exact listed
        · intro same
          rw [same, nonce] at listed
          exact apart (joined.shares i listed).symm
      · exact absurd empty some
  · intro a i z isAlive holds isLive
    rcases object isLive with ⟨rfl, -, some⟩ | ⟨apart, old⟩
    · exact some
    · simp only [Pools.finalizeSet] at isAlive holds
      split at holds
      · exact absurd (Option.some.inj holds).symm apart
      · rename_i notLeg
        rw [if_neg notLeg] at isAlive
        have other : a ≠ c := by
          rw [joined.only, List.mem_singleton] at notLeg
          exact notLeg
        rw [joined.circs, Function.update_of_ne other] at isAlive holds
        exact h.legs a i z isAlive holds (joined.held relay.owned holds old)

theorem Frees.listed (frees : Frees d c d') (owned : Owned d) (agrees : Agrees d) (h : Listed d)
    (own : ∀ id x, (d.circs c).conflux = some id → d.cfxs id = some x → x.legs ≠ [] ∨ d.linked x.nonce = none) :
    Listed d' := by
  have circ (e : Pools) (same : e.circs = d.circs) (a : CircId) (i : CfxId)
      (holds : ((e.forget c).circs a).conflux = some i) :
      a ≠ c ∧ (d.circs a).conflux = some i ∧ ((e.forget c).circs a).marked = (d.circs a).marked := by
    by_cases here : a = c
    · simp [Pools.forget, Pools.modifyCirc, here] at holds
    · simp only [Pools.forget, Pools.modifyCirc, Function.update_of_ne here, same] at holds ⊢
      exact ⟨here, holds, trivial⟩
  cases frees with
  | plain =>
      refine ⟨h.inPool, fun a i y unmarked holds live => ?_⟩
      obtain ⟨-, was, same⟩ := circ d rfl a i holds
      exact h.legs a i y (same ▸ unmarked) was live
  | @leg id x x' _ holds live legs _ nonce more =>
      have some : x.legs ≠ [] := by
        intro empty
        simp [legs, Pools.cfxDelLeg, empty] at more
      refine h.mono (fun i y isLive more' => ?_) (fun i y _ _ linked => linked) fun a i y unmarked isHeld isLive => ?_
      · rcases updated_cfx isLive with ⟨rfl, rfl⟩ | ⟨-, was⟩
        · exact ⟨x, live, some, nonce.symm⟩
        · exact ⟨y, was, more', rfl⟩
      · obtain ⟨-, was, same⟩ := circ _ rfl a i isHeld
        rcases updated_cfx isLive with ⟨rfl, rfl⟩ | ⟨-, old⟩
        · exact more
        · exact h.legs a i y (same ▸ unmarked) was old
  | @last id x _ holds live last gone =>
      have object (i : CfxId) (y : Cfx) (isLive : Function.update d.cfxs id none i = some y) : i ≠ id ∧ d.cfxs i = some y := by
        rw [Function.update_apply] at isLive
        split at isLive
        · cases isLive
        · exact ⟨‹_›, isLive⟩
      refine h.mono (fun i y isLive more => ⟨y, (object i y isLive).2, more, rfl⟩) (fun i y isLive more linked => ?_)
        fun a i y unmarked isHeld isLive => ?_
      · simp only [Pools.forget, Pools.modifyCirc, Pools.setLinked]
        rw [Function.update_of_ne]
        · exact linked
        · intro sameNonce
          rcases own id x holds live with some | absent
          · have listed := h.inPool id x live some
            rw [← sameNonce, linked] at listed
            exact (object i y isLive).1 (Option.some.inj listed)
          · rw [← sameNonce, linked] at absent
            cases absent
      · obtain ⟨-, was, same⟩ := circ _ rfl a i isHeld
        exact h.legs a i y (same ▸ unmarked) was (object i y isLive).2
  | @pass id x x' u _ holds live legs _ nonce last found =>
      have isLeg := (owned.leg_of_unlinked agrees holds live found).1
      have listed := h.inPool id x live (List.ne_nil_of_mem isLeg)
      have only := cfxDelLeg_last (owned.legs id x live).1 (legs ▸ last)
      refine h.mono (fun i y isLive more => ?_) (fun i y isLive more linked => ?_) fun a i y unmarked isHeld isLive => ?_
      · rcases updated_cfx isLive with ⟨rfl, rfl⟩ | ⟨-, was⟩
        · exact absurd last more
        · exact ⟨y, was, more, rfl⟩
      · rcases updated_cfx isLive with ⟨rfl, rfl⟩ | ⟨apart, was⟩
        · exact absurd last more
        · simp only [Pools.forget, Pools.modifyCirc, Pools.setUnlinked, Pools.setLinked]
          rw [Function.update_of_ne]
          · exact linked
          · intro sameNonce
            rw [sameNonce, listed] at linked
            exact apart (Option.some.inj linked).symm
      · obtain ⟨other, was, same⟩ := circ _ rfl a i isHeld
        rcases updated_cfx isLive with ⟨rfl, rfl⟩ | ⟨-, old⟩
        · exact absurd (only a (owned.held a i x was live (List.ne_nil_of_mem isLeg))) other
        · exact h.legs a i y (same ▸ unmarked) was old

theorem freesOwn_spec {s : State} (own : freesOwn s (.free c full) = true) :
    ∀ id x, (s.pools.circs c).conflux = some id → s.pools.cfxs id = some x →
      x.legs ≠ [] ∨ s.pools.linked x.nonce = none := by
  intro id x holds live
  simpa [freesOwn, holds, live] using own

theorem Served.listed {s : State} {event : Event} (served : Served s.pools event d') (relay : Relay s.pools)
    (h : Listed s.pools) (own : freesOwn s event = true) : Listed d' := by
  cases served with
  | flags => exact ⟨h.inPool, h.legs⟩
  | born => exact ⟨h.inPool, h.legs⟩
  | mark _ alive closes => exact closes.listed relay h alive
  | @teardown _ id x live =>
      constructor
      · intro i y isLive some
        rcases updated_cfx isLive with ⟨rfl, rfl⟩ | ⟨-, was⟩
        · exact h.inPool i x live some
        · exact h.inPool i y was some
      · intro a i y unmarked holds isLive
        rcases updated_cfx isLive with ⟨rfl, rfl⟩ | ⟨-, was⟩
        · exact h.legs a i x unmarked holds live
        · exact h.legs a i y unmarked holds was
  | refuse joined _ alive refused => exact joined.refused_listed (relay.born _) ⟨h.inPool, h.legs⟩ alive refused
  | link joined _ _ _ live => exact joined.finalized_listed (relay.born _) ⟨h.inPool, h.legs⟩ live
  | free _ frees => exact frees.listed relay.owned relay.agrees h (freesOwn_spec own)

end Listed

/-! ## Runs -/

structure State.Coherent (s : State) : Prop where
  circuits : ∀ c id x, (s.pools.circs c).marked = false → (s.pools.circs c).conflux = some id →
    s.pools.cfxs id = some x → s.pools.linked x.nonce = some id ∨ .afterClose c x.nonce ∈ s.stack
  entries : ∀ n id, s.pools.linked n = some id → ∃ x, s.pools.cfxs id = some x ∧ x.nonce = n ∧ x.legs ≠ []

section Runs
variable {p : Params} {s t : State} {e : Event}

theorem Sound.listed {d : Pools} (h : Sound d []) : Listed d where
  inPool := h.neat.inPool
  legs c id x unmarked holds live empty := by
    have closing := h.stale c id x holds live empty unmarked
    cases closing

theorem step_listed (tidy : s.Tidy) (h : s.phase = .running ∧ s.pools.side = .client ∨ Listed s.pools)
    (own : freesOwn s e = true) (stepped : s.step p e = some t) :
    t.phase = .running ∧ t.pools.side = .client ∨ Listed t.pools := by
  cases tidy with
  | client running side sound =>
      rcases step_moves side running stepped with (⟨fault, rfl⟩ | ⟨phase, -, move⟩) | ⟨idle, rfl⟩
      · exact .inl ⟨running, side⟩
      · exact .inl ⟨phase.trans running, move.side.trans side⟩
      · rw [idle] at sound
        exact .inr sound.listed
  | relay running relay ready =>
      have listed : Listed s.pools := by
        refine h.resolve_left fun client => ?_
        rw [relay.side] at client
        cases client.2
      rcases step_relay running relay ready stepped with ⟨-, rfl⟩ | ⟨-, served, -⟩
      · exact .inr listed
      · exact .inr (served.listed relay listed own)
  | exiting phase idle ending =>
      have listed : Listed s.pools := by
        refine h.resolve_left fun client => ?_
        rw [phase] at client
        cases client.1
      rcases step_exiting_inv phase idle stepped with ⟨fault, rfl⟩ | ⟨c, full, d, rfl, frees, rfl⟩ | rfl | ⟨d, all, freed, rfl⟩
      · exact .inr listed
      · exact .inr (frees.listed ending.owned ending.agrees listed (freesOwn_spec own))
      · exact .inr ⟨listed.inPool, listed.legs⟩
      · obtain ⟨d', freed', -, -, none⟩ := ending.poolFreeAll all
        obtain rfl := Except.ok.inj (freed.symm.trans freed')
        refine .inr ⟨fun id x live => ?_, fun c id x _ _ live => ?_⟩
        · rw [none] at live
          cases live
        · rw [none] at live
          cases live
  | done phase idle owned none =>
      unfold State.step at stepped
      split at stepped
      · cases stepped
      · rw [idle] at stepped
        cases e with
        | shutdown =>
            obtain rfl := Option.some.inj stepped
            exact h.imp id fun listed => ⟨listed.inPool, listed.legs⟩
        | _ => simp [State.call, phase] at stepped

end Runs
end TorJet.Pool
