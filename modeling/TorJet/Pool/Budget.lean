import TorJet.Pool.Sound

/-!
# The launch budget of a set

`num_leg_launch` goes up with every launch, down with every linked leg that is closed without a
teardown, and back to zero when the set is finalized. A ledger beside the pools counts the launches
and the refunds of each nonce since it was last finalized.
-/

namespace TorJet.Pool
open Smartlist Base

def launchedFor (s : State) (e : Event) (t : State) : Option Nonce :=
  match s.stack, e with
  | .launchLeg n :: _, .build c _ => if c ∈ t.pools.global then some n else none
  | _, _ => none

def refundedFor (s : State) (e : Event) : Option Nonce :=
  match s.stack, e with
  | .markForClose c :: _, .run false => if (s.pools.circs c).marked then none else s.pools.linkedLeg c
  | [], .repurpose c false => s.pools.linkedLeg c
  | [], .free c false => s.pools.linkedLeg c
  | _, _ => none

def finalizedFor (s : State) (e : Event) (t : State) : Option Nonce :=
  match e with
  | .recvLinked c _ _ => if (t.pools.circs c).conflux.isSome then (s.pools.circs c).pendingNonce else none
  | _ => none

structure Ledger where
  state : State
  launches : Nonce → Nat
  refunds : Nonce → Nat

namespace Ledger

def after (l : Ledger) (e : Event) (t : State) : Ledger where
  state := t
  launches n :=
    if finalizedFor l.state e t = some n then 0
    else l.launches n + if launchedFor l.state e t = some n then 1 else 0
  refunds n :=
    if finalizedFor l.state e t = some n then 0
    else l.refunds n + if refundedFor l.state e = some n then 1 else 0

def step (p : Params) (l : Ledger) (e : Event) : Option Ledger :=
  (l.state.step p e).map fun t => if t.fault.isSome then { l with state := t } else l.after e t

def machine (p : Params) : Machine Ledger Event where
  step l e := step p l e

def initial : Ledger where
  state := .initial .client
  launches _ := 0
  refunds _ := 0

end Ledger

/-- The refund of `cfx_del_leg`, in the `unsigned int` of the source. -/
def refund (numLegLaunch : UInt32) : UInt32 :=
  if numLegLaunch > 0 then numLegLaunch - 1 else numLegLaunch

theorem refund_toNat (w : UInt32) : (refund w).toNat = w.toNat - 1 := by
  unfold refund
  split
  · rename_i positive
    have one : (1 : UInt32) ≤ w := by
      rw [UInt32.le_iff_toNat_le]
      exact Nat.succ_le_of_lt (UInt32.lt_iff_toNat_lt.mp positive)
    rw [UInt32.toNat_sub_of_le _ _ one]
    rfl
  · rename_i zero
    have : ¬ 0 < w.toNat := fun positive => zero (UInt32.lt_iff_toNat_lt.mpr positive)
    omega

structure Balanced (p : Params) (d : Pools) (launches refunds : Nonce → Nat) : Prop where
  counted : ∀ id x, d.cfxs id = some x → launches x.nonce ≤ x.numLegLaunch + refunds x.nonce
  within : ∀ id x, d.cfxs id = some x → x.numLegLaunch ≤ p.numLegsSet + p.maxUnlinkedLegRetry
  bounded : ∀ n, launches n ≤ p.numLegsSet + p.maxUnlinkedLegRetry + refunds n
  unused : ∀ n, n ∉ d.nonces → launches n = 0

section Balanced
variable {p : Params} {d d' : Pools} {launches refunds : Nonce → Nat} {c : CircId} {n : Nonce}
  {id : CfxId} {x : Cfx}

theorem Balanced.mono (h : Balanced p d launches refunds)
    (objects : ∀ id y, d'.cfxs id = some y → ∃ x, d.cfxs id = some x ∧ x.nonce = y.nonce ∧
      x.numLegLaunch = y.numLegLaunch)
    (nonces : ∀ n ∈ d.nonces, n ∈ d'.nonces) : Balanced p d' launches refunds where
  counted id y live := by
    obtain ⟨x, was, nonce, count⟩ := objects id y live
    rw [← nonce, ← count]
    exact h.counted id x was
  within id y live := by
    obtain ⟨x, was, -, count⟩ := objects id y live
    rw [← count]
    exact h.within id x was
  bounded := h.bounded
  unused n fresh := h.unused n fun mem => fresh (nonces n mem)

theorem getOrCreate_balanced {rest : List Frame} (h : Balanced p d launches refunds)
    (sound : Sound d (.launchLeg n :: rest)) :
    Balanced p (d.unlinkedGetOrCreate n).1 launches refunds := by
  have nonces : ∀ m ∈ d.nonces, m ∈ (d.unlinkedGetOrCreate n).1.nonces := by
    unfold Pools.unlinkedGetOrCreate
    split
    · exact fun _ mem => mem
    · exact fun _ mem => List.mem_cons_of_mem _ mem
  constructor
  · intro i y live
    rcases getOrCreate_objects d n i y live with was | ⟨-, linked, unlinked, rfl⟩
    · exact h.counted i y was
    · have fresh : n ∉ d.nonces := by
        refine (sound.top n rfl).resolve_left ?_
        simp [Pools.Pooled, linked, unlinked]
      rw [h.unused n fresh]
      exact Nat.zero_le _
  · intro i y live
    rcases getOrCreate_objects d n i y live with was | ⟨-, -, -, rfl⟩
    · exact h.within i y was
    · exact Nat.zero_le _
  · exact h.bounded
  · exact fun m fresh => h.unused m fun mem => fresh (nonces m mem)

theorem launch_balanced {path : Option Path} (h : Balanced p d launches refunds) (neat : Neat d)
    (live : d.cfxs id = some x) (nonce : x.nonce = n)
    (allowed : x.numLegLaunch < p.numLegsSet + p.maxUnlinkedLegRetry) :
    Balanced p (d.newCircuit c n id x path) (fun m => launches m + if some n = some m then 1 else 0)
      refunds := by
  have counted := h.counted id x live
  rw [nonce] at counted
  constructor
  · intro i y isLive
    simp only [Pools.newCircuit, Pools.setCfx, Function.update_apply] at isLive
    split at isLive
    · obtain rfl := Option.some.inj isLive
      simp only [nonce, if_true]
      omega
    · rename_i other
      have ne : n ≠ y.nonce := fun same => other (neat.unique i id y x isLive live (nonce ▸ same.symm))
      simp only [Option.some.injEq, if_neg ne]
      exact h.counted i y isLive
  · intro i y isLive
    simp only [Pools.newCircuit, Pools.setCfx, Function.update_apply] at isLive
    split at isLive
    · obtain rfl := Option.some.inj isLive
      exact allowed
    · exact h.within i y isLive
  · intro m
    by_cases here : n = m
    · subst here
      rw [if_pos rfl]
      omega
    · rw [if_neg fun same => here (Option.some.inj same)]
      exact h.bounded m
  · intro m fresh
    have ne : n ≠ m := fun same => fresh (same ▸ nonce ▸ neat.keys id x live)
    rw [if_neg fun same => ne (Option.some.inj same)]
    exact h.unused m fresh

theorem finalize_balanced {u : Unlinked} (h : Balanced p d launches refunds)
    (neat : Neat d) (live : d.cfxs u.cfx = some x) (nonce : x.nonce = n) :
    Balanced p (d.finalizeSet u x) (fun m => if some n = some m then 0 else launches m)
      (fun m => if some n = some m then 0 else refunds m) := by
  constructor
  · intro i y isLive
    simp only [Pools.finalizeSet, Function.update_apply] at isLive
    split at isLive
    · obtain rfl := Option.some.inj isLive
      simp [nonce]
    · rename_i other
      have ne : n ≠ y.nonce := fun same =>
        other (neat.unique i u.cfx y x isLive live (nonce ▸ same.symm))
      simp only [Option.some.injEq, if_neg ne]
      exact h.counted i y isLive
  · intro i y isLive
    simp only [Pools.finalizeSet, Function.update_apply] at isLive
    split at isLive
    · obtain rfl := Option.some.inj isLive
      exact Nat.zero_le _
    · exact h.within i y isLive
  · intro m
    split
    · exact Nat.zero_le _
    · exact h.bounded m
  · intro m fresh
    split
    · rfl
    · exact h.unused m fresh

theorem Closes.balanced {full : Bool} {frames : List Frame} (closes : Closes d c full d' frames)
    (h : Balanced p d launches refunds) :
    Balanced p d' launches (fun m => refunds m +
      if (if full then none else d.linkedLeg c) = some m then 1 else 0) := by
  have objects (i : CfxId) (y : Cfx) (isLive : d'.cfxs i = some y) :
      launches y.nonce ≤ y.numLegLaunch + (refunds y.nonce +
        if (if full then none else d.linkedLeg c) = some y.nonce then 1 else 0) ∧
      y.numLegLaunch ≤ p.numLegsSet + p.maxUnlinkedLegRetry := by
    obtain ⟨z, was, nonce, ⟨rfl, -⟩ | ⟨pending, holds, rfl⟩⟩ := closes.objects i y isLive
    · exact ⟨(h.counted i y was).trans (by omega), h.within i y was⟩
    · have counted := h.counted i z was
      have within := h.within i z was
      rw [cfxDelLeg_nonce]
      by_cases isLeg : c ∈ z.legs
      · have leg : d.linkedLeg c = some z.nonce := by simp [Pools.linkedLeg, pending, holds, was, isLeg]
        simp only [Pools.cfxDelLeg, if_pos isLeg, leg]
        cases full
        · simp only [Bool.false_eq_true, if_false, if_true]
          omega
        · simp only [if_true]
          omega
      · simp only [Pools.cfxDelLeg, if_neg isLeg]
        omega
  refine ⟨fun i y isLive => (objects i y isLive).1, fun i y isLive => (objects i y isLive).2, fun m => ?_,
    fun m fresh => ?_⟩
  · exact (h.bounded m).trans (by omega)
  · rw [closes.untouched.2.2.1] at fresh
    exact h.unused m fresh

section Ledger
variable {l : Ledger} {e : Event} {t : State}

theorem Ledger.after_plain (finalized : finalizedFor l.state e t = none)
    (launched : launchedFor l.state e t = none) (refunded : refundedFor l.state e = none) :
    (l.after e t).launches = l.launches ∧ (l.after e t).refunds = l.refunds := by
  simp [Ledger.after, finalized, launched, refunded]

theorem unfinished {s : State} {timely valid : Bool} (neat : Neat s.pools)
    (same : t.pools.circs = s.pools.circs) : finalizedFor s (.recvLinked c timely valid) t = none := by
  simp only [finalizedFor, same]
  split
  · rename_i linked
    obtain ⟨id, holds⟩ := Option.isSome_iff_exists.mp linked
    exact neat.linked_idle holds
  · rfl

theorem Move.balanced (move : Move p l.state.pools l.state.stack e t.pools t.stack)
    (sound : Sound l.state.pools l.state.stack)
    (h : Balanced p l.state.pools l.launches l.refunds) :
    Balanced p t.pools (l.after e t).launches (l.after e t).refunds := by
  obtain ⟨⟨d, stack, phase, fault⟩, launches, refunds⟩ := l
  obtain ⟨d', stack', phase', fault'⟩ := t
  dsimp only at move sound h ⊢
  have plain (finalized : finalizedFor ⟨d, stack, phase, fault⟩ e ⟨d', stack', phase', fault'⟩ = none)
      (launched : launchedFor ⟨d, stack, phase, fault⟩ e ⟨d', stack', phase', fault'⟩ = none)
      (refunded : refundedFor ⟨d, stack, phase, fault⟩ e = none)
      (objects : ∀ id y, d'.cfxs id = some y → ∃ x, d.cfxs id = some x ∧ x.nonce = y.nonce ∧
        x.numLegLaunch = y.numLegLaunch)
      (nonces : ∀ n ∈ d.nonces, n ∈ d'.nonces) :
      Balanced p d' (Ledger.after ⟨⟨d, stack, phase, fault⟩, launches, refunds⟩ e
        ⟨d', stack', phase', fault'⟩).launches (Ledger.after ⟨⟨d, stack, phase, fault⟩, launches, refunds⟩ e
        ⟨d', stack', phase', fault'⟩).refunds := by
    obtain ⟨sameLaunches, sameRefunds⟩ := Ledger.after_plain
      (l := ⟨⟨d, stack, phase, fault⟩, launches, refunds⟩) finalized launched refunded
    rw [sameLaunches, sameRefunds]
    exact h.mono objects nonces
  have kept : ∀ id y, d.cfxs id = some y → ∃ x, d.cfxs id = some x ∧ x.nonce = y.nonce ∧
      x.numLegLaunch = y.numLegLaunch := fun id y live => ⟨y, live, rfl, rfl⟩
  cases move with
  | launchSet | add | closeSet | markAll | spare | settle | refill | oom | buildFails | built |
    forget | setPurpose => exact plain rfl rfl rfl kept fun _ mem => mem
  | close isOpen calls =>
      refine plain ?_ rfl ?_ kept fun _ mem => mem
      · rcases calls with rfl | ⟨timely, valid, rfl⟩
        · rfl
        · exact unfinished sound.neat rfl
      · rcases calls with rfl | ⟨timely, valid, rfl⟩ <;> rfl
  | flags pressure shuttingDown calls =>
      refine plain ?_ rfl ?_ kept fun _ mem => mem
      · rcases calls with ⟨under, rfl⟩ | rfl <;> rfl
      · rcases calls with ⟨under, rfl⟩ | rfl <;> rfl
  | answer => exact plain (unfinished sound.neat rfl) rfl rfl kept fun _ mem => mem
  | register => exact plain rfl rfl rfl kept fun _ mem => mem
  | @skip c full _ marked =>
      refine plain rfl rfl ?_ kept fun _ mem => mem
      cases full
      · exact if_pos marked
      · rfl
  | @repurpose c full _ frames isOpen closes =>
      have balanced := closes.balanced h
      have refunded : refundedFor ⟨d, [], phase, fault⟩ (.repurpose c full) =
          if full then none else d.linkedLeg c := by cases full <;> rfl
      simpa [Ledger.after, finalizedFor, launchedFor, refunded] using balanced
  | @mark c full rest frames _ alive closes =>
      have marked : Balanced p (d.mark c) launches refunds := h.mono kept fun _ mem => mem
      have balanced := closes.balanced marked
      have same : (d.mark c).linkedLeg c = d.linkedLeg c := by
        simp [Pools.linkedLeg, Pools.mark, Pools.modifyCirc]
      have refunded : refundedFor ⟨d, .markForClose c :: rest, phase, fault⟩ (.run full) =
          if full then none else d.linkedLeg c := by cases full <;> simp [refundedFor, alive]
      rw [same] at balanced
      simpa [Ledger.after, finalizedFor, launchedFor, refunded] using balanced
  | @finalize c timely valid n u x pending found isLeg live =>
      have nonce := (sound.filed.unlinked n u found).2 x live
      have balanced := finalize_balanced (u := u.answer c) h sound.neat live nonce
      have finalized : finalizedFor ⟨d, [], phase, fault⟩ (.recvLinked c timely valid)
          ⟨d.finalizeSet (u.answer c) x, [], phase', fault'⟩ = some n := by
        have mem : c ∈ (u.answer c).circs := by rwa [answer_circs]
        simp [finalizedFor, Pools.finalizeSet, mem, pending]
      simpa [Ledger.after, launchedFor, refundedFor, finalized] using balanced
  | @free c full _ marked frees =>
      obtain ⟨-, none, -, nonces, objects, -⟩ := sound.frees marked frees
      refine plain rfl rfl ?_ (fun id y live => ⟨y, objects id y live, rfl, rfl⟩) fun m mem => nonces ▸ mem
      cases full
      · exact none
      · rfl
  | deleteEmpty =>
      refine plain rfl rfl rfl (fun id y live => ⟨y, deleteSet_cfxs live, rfl, rfl⟩) ?_
      unfold Pools.deleteSet
      split <;> exact fun _ mem => mem
  | @teardown n _ _ id x linked live =>
      refine plain rfl rfl rfl (fun i y isLive => ?_) fun _ mem => mem
      simp only [Pools.setCfx, Function.update_apply] at isLive
      split at isLive
      · rename_i here
        obtain rfl := Option.some.inj isLive
        exact ⟨x, here ▸ live, rfl, rfl⟩
      · exact ⟨y, isLive, rfl, rfl⟩
  | @rebuild c n _ _ id x _ unlinked holds live rebuilt =>
      obtain ⟨-, rfl⟩ := sound.rebuilt unlinked holds live rebuilt
      exact plain rfl rfl rfl kept fun _ mem => List.mem_cons_of_mem _ mem
  | @refuse n c path rest _ u x unborn created live spent =>
      have balanced := getOrCreate_balanced h sound
      have global := (getOrCreate_frame d n).2.2.2
      simp only [created] at balanced global
      have launched : launchedFor ⟨d, .launchLeg n :: stack', phase, fault⟩ (.build c path)
          ⟨d', stack', phase', fault'⟩ = none := by simp [launchedFor, global, unborn]
      simpa [Ledger.after, finalizedFor, refundedFor, launched] using balanced
  | @launch n c path rest frames d₁ u x _ unborn created live allowed lookup next =>
      have balanced := getOrCreate_balanced h sound
      have made := getOrCreate_sound sound
      simp only [created] at balanced made
      have found := getOrCreate_found d n
      rw [created] at found
      have nonce := (made.filed.unlinked n u found).2 x live
      have launched : Balanced p (d₁.newCircuit c n u.cfx x path)
          (fun m => launches m + if some n = some m then 1 else 0) refunds :=
        launch_balanced balanced made.neat live nonce allowed
      have isLaunch : launchedFor ⟨d, .launchLeg n :: rest, phase, fault⟩ (.build c path)
          ⟨d₁.newCircuit c n u.cfx x path, frames ++ rest, phase', fault'⟩ = some n := by
        simp [launchedFor, Pools.newCircuit]
      simpa [Ledger.after, finalizedFor, refundedFor, isLaunch] using launched

structure Ledger.Kept (p : Params) (l : Ledger) : Prop where
  client : l.state.pools.side = .client
  running : l.state.phase = .running → Sound l.state.pools l.state.stack ∧
    Balanced p l.state.pools l.launches l.refunds
  exiting : l.state.phase ≠ .running → l.state.stack = []
  within : ∀ id x, l.state.pools.cfxs id = some x →
    x.numLegLaunch ≤ p.numLegsSet + p.maxUnlinkedLegRetry
  bounded : ∀ n, l.launches n ≤ p.numLegsSet + p.maxUnlinkedLegRetry + l.refunds n

theorem Ledger.after_bounded {bound : Nat} (idle : l.state.stack = [])
    (bounded : ∀ n, l.launches n ≤ bound + l.refunds n) (n : Nonce) :
    (l.after e t).launches n ≤ bound + (l.after e t).refunds n := by
  have launched : launchedFor l.state e t = none := by simp [launchedFor, idle]
  have le := bounded n
  simp only [Ledger.after, launched]
  split
  · exact Nat.zero_le _
  · simp only [reduceCtorEq, if_false]
    omega

theorem Ledger.kept (reach : (Ledger.machine p).Reach (fun l _ => detaches l.state = true)
    Ledger.initial l) : l.Kept p := by
  induction reach with
  | refl =>
      refine ⟨rfl, fun _ => ⟨initial_sound, ?_⟩, by simp [Ledger.initial, State.initial], ?_, ?_⟩
      · constructor <;> simp [Ledger.initial, State.initial]
      · simp [Ledger.initial, State.initial]
      · simp [Ledger.initial]
  | @next l l' e _ ok action h =>
      obtain ⟨t, stepped, rfl⟩ := Option.map_eq_some_iff.mp action
      have healthy := step_healthy stepped
      by_cases running : l.state.phase = .running
      · obtain ⟨sound, balanced⟩ := h.running running
        rcases step_moves h.client running stepped with (⟨fault, rfl⟩ | ⟨phase, fault, move⟩) | ⟨idle, rfl⟩
        · exact ⟨h.client, fun _ => ⟨sound, balanced⟩, fun exiting => absurd running exiting, h.within,
            h.bounded⟩
        · simp only [fault, healthy, Option.isSome_none, Bool.false_eq_true, if_false]
          have after := move.balanced sound balanced
          exact ⟨move.side.trans h.client, fun _ => ⟨move.sound sound ok, after⟩,
            fun exiting => absurd (phase.trans running) exiting, after.within, after.bounded⟩
        · simp only [healthy, Option.isSome_none, Bool.false_eq_true, if_false]
          exact ⟨h.client, fun running => (by cases running), fun _ => idle, h.within,
            Ledger.after_bounded idle h.bounded⟩
      · have idle := h.exiting running
        obtain ⟨phase, stack, smaller⟩ := step_exiting running idle stepped
        have within : ∀ id x, t.pools.cfxs id = some x →
            x.numLegLaunch ≤ p.numLegsSet + p.maxUnlinkedLegRetry := fun id y live => by
          obtain ⟨x, was, le⟩ := smaller.objects id y live
          exact le.trans (h.within id x was)
        split
        · exact ⟨smaller.side.trans h.client, fun running => absurd running phase, fun _ => stack, within,
            h.bounded⟩
        · exact ⟨smaller.side.trans h.client, fun running => absurd running phase, fun _ => stack, within,
            Ledger.after_bounded idle h.bounded⟩

end Ledger
end Balanced

/-- Between two finalizations a nonce has no more launches than its budget and the refunds of its
linked legs allow, and the counter behind the budget does not wrap around. -/
theorem launches_within_budget {p : Params} {l : Ledger}
    (reach : (Ledger.machine p).Reach (fun l _ => detaches l.state = true) Ledger.initial l) :
    (∀ n, l.launches n ≤ p.numLegsSet + p.maxUnlinkedLegRetry + l.refunds n) ∧
      ∀ id x, l.state.pools.cfxs id = some x →
        x.numLegLaunch ≤ p.numLegsSet + p.maxUnlinkedLegRetry ∧
        ∀ c ∈ x.legs, ∀ w : UInt32, w.toNat = x.numLegLaunch →
          refund w ≤ w ∧ (refund w).toNat = (Pools.cfxDelLeg x c false).1.numLegLaunch := by
  have kept := Ledger.kept reach
  refine ⟨kept.bounded, fun id x live => ⟨kept.within id x live, fun c isLeg w same => ?_⟩⟩
  have value := refund_toNat w
  constructor
  · rw [UInt32.le_iff_toNat_le]
    omega
  · simp [Pools.cfxDelLeg, isLeg, value, same]

/-- Two legs are launched and linked; one is closed, which gives its launch back, and replaced. -/
theorem refilled_set_within_budget : ∃ l, (Ledger.machine .consensus).Reach
    (fun l _ => detaches l.state = true) Ledger.initial l ∧ l.launches 7 = 1 ∧ l.refunds 7 = 1 ∧
      l.launches 7 ≤ Params.consensus.numLegsSet + Params.consensus.maxUnlinkedLegRetry + l.refunds 7 := by
  obtain ⟨l, reach, launches, refunds⟩ := Machine.exists_of_run (Ledger.machine .consensus)
    (fun l _ => detaches l.state = true) Ledger.initial
    (P := fun l => l.launches 7 = 1 ∧ l.refunds 7 = 1)
    [.launchSet 7, .build 1 (some ⟨9, 1, 2⟩), .built, .run false,
      .add 7, .build 2 (some ⟨9, 3, 4⟩), .built, .run false,
      .recvLinked 1 true true, .recvLinked 2 true true,
      .close 1, .run false, .run false, .build 3 (some ⟨9, 5, 6⟩), .built, .run false] (by decide)
  exact ⟨l, reach, launches, refunds, (launches_within_budget reach).1 7⟩

/-- The sole leg of a linked set is given another purpose under memory pressure. It stays open and
keeps the object, so that every `CONFLUX ADD` starts over with a new set and a new budget. -/
theorem budget_restarts_after_repurpose : ¬ ∀ l, (Ledger.machine .consensus).Reach (fun _ _ => True)
    Ledger.initial l → ∀ n, l.launches n ≤
      Params.consensus.numLegsSet + Params.consensus.maxUnlinkedLegRetry + l.refunds n := by
  intro claim
  obtain ⟨l, reach, more⟩ := Machine.exists_of_run (Ledger.machine .consensus)
    (fun _ _ => True) Ledger.initial
    (P := fun l => Params.consensus.numLegsSet + Params.consensus.maxUnlinkedLegRetry + l.refunds 7 <
      l.launches 7)
    ([.launchSet 7, .build 1 (some ⟨9, 1, 2⟩), .built, .run false,
      .add 7, .build 2 (some ⟨9, 3, 4⟩), .built, .run false,
      .recvLinked 1 true true, .recvLinked 2 true true,
      .pressure true, .close 2, .run false, .run false,
      .repurpose 1 false, .run false, .run false, .pressure false] ++
      [3, 4, 5, 6, 7, 8, 9, 10].flatMap fun c => [.add 7, .build c none, .run false, .run false]) (by decide)
  exact absurd (claim l reach 7) (Nat.not_le.mpr more)

end TorJet.Pool
