import TorJet.Pool.Empty
import TorJet.Pool.Owned

/-!
# The pools of a client

On a client no two objects share a nonce, and the pool of linked sets finds every object with legs.
-/

namespace TorJet.Pool
open Smartlist Base

structure Neat (d : Pools) : Prop where
  owned : Owned d
  unique : ∀ id id' x x', d.cfxs id = some x → d.cfxs id' = some x' → x.nonce = x'.nonce → id = id'
  inPool : ∀ id x, d.cfxs id = some x → x.legs ≠ [] → d.linked x.nonce = some id
  waits : ∀ n u, d.unlinked n = some u → u.circs.Nodup ∧
    ∀ c ∈ u.circs, (d.circs c).pendingNonce = some n
  apart : ∀ c n, (d.circs c).pendingNonce = some n → (d.circs c).conflux = none
  keys : ∀ id x, d.cfxs id = some x → x.nonce ∈ d.nonces
  created : ∀ c, c ∉ d.global → (d.circs c).conflux = none ∧ (d.circs c).pendingNonce = none

section Neat
variable {d d' : Pools} {c : CircId} {n : Nonce} {id : CfxId} {u : Unlinked} {x x' : Cfx}

theorem Neat.linked_idle (h : Neat d) (holds : (d.circs c).conflux = some id) :
    (d.circs c).pendingNonce = none := by
  rw [Option.eq_none_iff_forall_ne_some]
  intro m pending
  rw [h.apart c m pending] at holds
  cases holds

theorem Neat.stale (h : Neat d) (holds : (d.circs c).conflux = some id) (live : d.cfxs id = some x)
    (last : x.legs = []) : d.linked x.nonce = none ∧ d.unlinked x.nonce = none := by
  constructor
  · by_contra some
    obtain ⟨i, linked⟩ := Option.ne_none_iff_exists'.mp some
    obtain ⟨y, isLive, nonce, legs⟩ := h.owned.linked _ i linked
    obtain rfl := h.unique i id y x isLive live nonce
    obtain rfl := Option.some.inj (isLive.symm.trans live)
    exact legs last
  · by_contra some
    obtain ⟨u, found⟩ := Option.ne_none_iff_exists'.mp some
    obtain ⟨y, isLive, nonce, -⟩ := h.owned.unlinked _ u found
    exact (h.owned.closed c id x holds live last).2 u found (h.unique _ id y x isLive live nonce)

theorem Neat.mono (h : Neat d) (owned : Owned d')
    (objects : ∀ id x', d'.cfxs id = some x' → ∃ x, d.cfxs id = some x ∧ x.nonce = x'.nonce)
    (inPool : ∀ id x, d'.cfxs id = some x → x.legs ≠ [] → d'.linked x.nonce = some id)
    (waits : ∀ n u, d'.unlinked n = some u → u.circs.Nodup ∧
      ∀ c ∈ u.circs, (d'.circs c).pendingNonce = some n)
    (circs : ∀ c, (∀ id, (d'.circs c).conflux = some id → (d.circs c).conflux = some id) ∧
      ∀ n, (d'.circs c).pendingNonce = some n → (d.circs c).pendingNonce = some n)
    (nonces : ∀ n ∈ d.nonces, n ∈ d'.nonces) (global : d'.global = d.global) : Neat d' where
  owned := owned
  unique i j y z live live' same := by
    obtain ⟨y', wasLive, nonce⟩ := objects i y live
    obtain ⟨z', wasLive', nonce'⟩ := objects j z live'
    exact h.unique i j y' z' wasLive wasLive' ((nonce.trans same).trans nonce'.symm)
  inPool := inPool
  waits := waits
  apart a m pending := by
    have none := h.apart a m ((circs a).2 m pending)
    rw [Option.eq_none_iff_forall_ne_some]
    intro i holds
    have was := (circs a).1 i holds
    rw [none] at was
    cases was
  keys i y live := by
    obtain ⟨z, wasLive, nonce⟩ := objects i y live
    exact nonces _ (nonce ▸ h.keys i z wasLive)
  created a unborn := by
    rw [global] at unborn
    obtain ⟨conflux, pending⟩ := h.created a unborn
    constructor
    · rw [Option.eq_none_iff_forall_ne_some]
      intro i holds
      have was := (circs a).1 i holds
      rw [conflux] at was
      cases was
    · rw [Option.eq_none_iff_forall_ne_some]
      intro m isPending
      have was := (circs a).2 m isPending
      rw [pending] at was
      cases was

theorem modifyCirc_neat {f : Circ → Circ} (h : Neat d)
    (conflux : (f (d.circs c)).conflux = (d.circs c).conflux)
    (pending : (f (d.circs c)).pendingNonce = (d.circs c).pendingNonce) : Neat (d.modifyCirc c f) := by
  have circs (a : CircId) : ((d.modifyCirc c f).circs a).conflux = (d.circs a).conflux ∧
      ((d.modifyCirc c f).circs a).pendingNonce = (d.circs a).pendingNonce := by
    by_cases here : a = c <;> simp [Pools.modifyCirc, here, conflux, pending]
  refine h.mono (modifyCirc_owned h.owned conflux) (fun i y live => ⟨y, live, rfl⟩) h.inPool
    (fun m v found => ?_) (fun a => ?_) (fun _ mem => mem) rfl
  · obtain ⟨nodup, pending⟩ := h.waits m v found
    refine ⟨nodup, fun a mem => ?_⟩
    rw [(circs a).2]
    exact pending a mem
  · rw [(circs a).1, (circs a).2]
    exact ⟨fun _ holds => holds, fun _ pending => pending⟩

section Closing
variable {full : Bool} {frames : List Frame}

theorem Closes.objects (closes : Closes d c full d' frames) (i : CfxId) (z : Cfx)
    (isLive : d'.cfxs i = some z) : ∃ y, d.cfxs i = some y ∧ y.nonce = z.nonce ∧
      (z = y ∧ ((d.circs c).pendingNonce = none → (d.circs c).conflux ≠ some i) ∨
        (d.circs c).pendingNonce = none ∧ (d.circs c).conflux = some i ∧
          z = (Pools.cfxDelLeg y c full).1) := by
  have same (isLive : d.cfxs i = some z)
      (notHeld : (d.circs c).pendingNonce = none → (d.circs c).conflux ≠ some i) :
      ∃ y, d.cfxs i = some y ∧ y.nonce = z.nonce ∧
        (z = y ∧ ((d.circs c).pendingNonce = none → (d.circs c).conflux ≠ some i) ∨
          (d.circs c).pendingNonce = none ∧ (d.circs c).conflux = some i ∧
            z = (Pools.cfxDelLeg y c full).1) :=
    ⟨z, isLive, rfl, .inl ⟨rfl, notHeld⟩⟩
  have less {id : CfxId} {x : Cfx} (pending : (d.circs c).pendingNonce = none)
      (holds : (d.circs c).conflux = some id) (live : d.cfxs id = some x)
      (isLive : Function.update d.cfxs id (some (Pools.cfxDelLeg x c full).1) i = some z) :
      ∃ y, d.cfxs i = some y ∧ y.nonce = z.nonce ∧
        (z = y ∧ ((d.circs c).pendingNonce = none → (d.circs c).conflux ≠ some i) ∨
          (d.circs c).pendingNonce = none ∧ (d.circs c).conflux = some i ∧
            z = (Pools.cfxDelLeg y c full).1) := by
    rw [Function.update_apply] at isLive
    split at isLive
    · rename_i here
      subst here
      obtain rfl := Option.some.inj isLive
      exact ⟨x, live, (cfxDelLeg_nonce ..).symm, .inr ⟨pending, holds, rfl⟩⟩
    · rename_i other
      refine same isLive fun _ isHeld => other ?_
      exact Option.some.inj (isHeld.symm.trans holds)
  cases closes with
  | nothing idle => exact same isLive fun none => by simp [idle none]
  | dropLeg pending =>
      exact same (by simpa [Pools.dropLeg, Pools.setUnlinked] using isLive) (by simp [pending])
  | dropSet pending =>
      refine same ?_ (by simp [pending])
      unfold Pools.deleteSet at isLive
      split at isLive
      · simpa [Pools.setUnlinked] using isLive
      · simp only [Pools.setCfx, Pools.setUnlinked, clearPending_cfxs, Function.update_apply] at isLive
        split at isLive
        · cases isLive
        · exact isLive
  | detach pending holds live => exact less pending holds live isLive
  | handOver pending holds live => exact less pending holds live isLive
  | keep pending holds live => exact less pending holds live isLive

theorem Closes.legs (closes : Closes d c full d' frames) (h : Neat d) {i : CfxId} {z : Cfx}
    (isLive : d'.cfxs i = some z) {a : CircId} (mem : a ∈ z.legs) :
    a ≠ c ∧ ∃ y, d.cfxs i = some y ∧ a ∈ y.legs := by
  obtain ⟨y, wasLive, nonce, ⟨rfl, notHeld⟩ | ⟨-, holds, rfl⟩⟩ := closes.objects i z isLive
  · refine ⟨?_, z, wasLive, mem⟩
    rintro rfl
    have holds := (h.owned.legs i z wasLive).2 a mem
    exact notHeld (h.linked_idle holds) holds
  · obtain ⟨was, ne⟩ := ((cfxDelLeg_legs (h.owned.legs i y wasLive).1 c full).2 a).mp mem
    exact ⟨ne, y, wasLive, was⟩

theorem Closes.waits (closes : Closes d c full d' frames) (h : Neat d) (m : Nonce) (v : Unlinked)
    (isFound : d'.unlinked m = some v) : v.circs.Nodup ∧ c ∉ v.circs ∧
      ∀ a ∈ v.circs, (d'.circs a).pendingNonce = some m ∧ ∃ w, d.unlinked m = some w ∧ a ∈ w.circs := by
  have same {w : Unlinked} (notHere : (d.circs c).pendingNonce ≠ some m) (wasFound : d.unlinked m = some w)
      (circs : v.circs = w.circs) : v.circs.Nodup ∧ c ∉ v.circs ∧
        ∀ a ∈ v.circs, (d'.circs a).pendingNonce = some m ∧ ∃ w, d.unlinked m = some w ∧ a ∈ w.circs := by
    obtain ⟨nodup, pending⟩ := h.waits m w wasFound
    rw [circs]
    have notLeg : c ∉ w.circs := fun mem => notHere (pending c mem)
    refine ⟨nodup, notLeg, fun a mem => ⟨?_, w, wasFound, mem⟩⟩
    rw [(closes.circs a).2.2.2 fun here => notLeg (here ▸ mem)]
    exact pending a mem
  cases id closes with
  | nothing idle gone =>
      refine same (fun pending => ?_) isFound rfl
      rw [gone m pending] at isFound
      cases isFound
  | @dropLeg n u pending found more =>
      simp only [Pools.dropLeg, Pools.setUnlinked, clearPending_unlinked, Function.update_apply] at isFound
      split at isFound
      · rename_i here
        subst here
        obtain rfl := Option.some.inj isFound
        obtain ⟨nodup, isPending⟩ := h.waits m u found
        obtain ⟨nodup', keys⟩ := remove_keys _ nodup c
        refine ⟨nodup', fun mem => ((keys c).mp mem).2 rfl, fun a mem => ?_⟩
        obtain ⟨was, ne⟩ := (keys a).mp mem
        refine ⟨?_, u, found, was⟩
        rw [(closes.circs a).2.2.2 ne]
        exact isPending a was
      · rename_i other
        exact same (fun here => other (Option.some.inj (here.symm.trans pending))) isFound rfl
  | @dropSet n u x pending found live last =>
      obtain ⟨y, isLive, nonce, -⟩ := h.owned.unlinked n u found
      obtain rfl := Option.some.inj (isLive.symm.trans live)
      rw [deleteSet_unlinked, clearPending_unlinked, nonce] at isFound
      split at isFound
      · cases isFound
      · rename_i other
        exact same (fun here => other (Option.some.inj (here.symm.trans pending))) isFound rfl
  | detach pending => exact same (by simp [pending]) isFound rfl
  | @handOver id x u _ pending holds live last found shares =>
      simp only [Pools.handOver, Pools.setUnlinked, Pools.modifyCirc, cfxDelLeg_nonce,
        Function.update_apply] at isFound
      split at isFound
      · rename_i here
        subst here
        obtain rfl := Option.some.inj isFound
        exact same (by simp [pending]) found rfl
      · exact same (by simp [pending]) isFound rfl
  | keep pending => exact same (by simp [pending]) isFound rfl

theorem Closes.keeps (closes : Closes d c full d' frames) (h : Neat d) {m : Nonce} {w : Unlinked}
    (found : d.unlinked m = some w) {a : CircId} (mem : a ∈ w.circs) (ne : a ≠ c) :
    ∃ v, d'.unlinked m = some v ∧ a ∈ v.circs := by
  obtain ⟨nodup, -⟩ := h.waits m w found
  have kept := ((remove_keys _ nodup c).2 a).mpr ⟨mem, ne⟩
  cases closes with
  | nothing | detach | keep => exact ⟨w, found, mem⟩
  | @dropLeg n u _ isFound =>
      simp only [Pools.dropLeg, Pools.setUnlinked, clearPending_unlinked, Function.update_apply]
      split
      · rename_i here
        subst here
        obtain rfl := Option.some.inj (found.symm.trans isFound)
        exact ⟨_, rfl, kept⟩
      · exact ⟨w, found, mem⟩
  | @dropSet n u x _ isFound live last =>
      obtain ⟨y, isLive, nonce, -⟩ := h.owned.unlinked n u isFound
      obtain rfl := Option.some.inj (isLive.symm.trans live)
      rw [deleteSet_unlinked, clearPending_unlinked, nonce]
      split
      · rename_i here
        subst here
        obtain rfl := Option.some.inj (found.symm.trans isFound)
        rw [last] at kept
        cases kept
      · exact ⟨w, found, mem⟩
  | @handOver id x u _ _ _ _ _ isFound =>
      simp only [Pools.handOver, Pools.setUnlinked, Pools.modifyCirc, cfxDelLeg_nonce,
        Function.update_apply]
      split
      · rename_i here
        subst here
        obtain rfl := Option.some.inj (found.symm.trans isFound)
        exact ⟨_, rfl, mem⟩
      · exact ⟨w, found, mem⟩

theorem Closes.pending (closes : Closes d c full d' frames) {m : Nonce}
    (waits : (d.circs c).pendingNonce = some m) : (d'.circs c).pendingNonce =
      if (d.unlinked m).any (fun u => c ∈ u.circs) then none else some m := by
  have cleared {u : Unlinked} : ((d.clearPending c u).circs c).pendingNonce =
      if c ∈ u.circs then none else some m := by
    unfold Pools.clearPending
    split <;> simp [Pools.modifyCirc, waits]
  cases closes with
  | nothing idle gone => simp [gone m waits, waits]
  | @dropLeg n u pending found =>
      obtain rfl := Option.some.inj (pending.symm.trans waits)
      simpa [found, Pools.dropLeg, Pools.setUnlinked] using cleared
  | @dropSet n u x pending found =>
      obtain rfl := Option.some.inj (pending.symm.trans waits)
      simpa [found] using cleared
  | detach pending | handOver pending | keep pending =>
      rw [pending] at waits
      cases waits

theorem Closes.inPool (closes : Closes d c full d' frames) (h : Neat d) (i : CfxId) (z : Cfx)
    (isLive : d'.cfxs i = some z) (more : z.legs ≠ []) : d'.linked z.nonce = some i := by
  obtain ⟨a, mem⟩ := List.exists_mem_of_ne_nil _ more
  obtain ⟨-, y, wasLive, wasLeg⟩ := closes.legs h isLive mem
  obtain ⟨y', wasLive', nonce, same⟩ := closes.objects i z isLive
  obtain rfl := Option.some.inj (wasLive'.symm.trans wasLive)
  have was := h.inPool i y' wasLive (List.ne_nil_of_mem wasLeg)
  rw [nonce] at was
  have last {id : CfxId} {x : Cfx} (holds : (d.circs c).conflux = some id) (live : d.cfxs id = some x)
      (pending : (d.circs c).pendingNonce = none) (last : (Pools.cfxDelLeg x c full).1.legs = []) :
      z.nonce ≠ x.nonce := fun eq => by
    obtain rfl := h.unique i id y' x wasLive live (nonce.trans eq)
    obtain rfl := Option.some.inj (live.symm.trans wasLive)
    rcases same with ⟨rfl, notHeld⟩ | ⟨-, -, rfl⟩
    · exact notHeld pending holds
    · exact more last
  cases closes with
  | nothing => exact was
  | dropLeg => simpa [Pools.dropLeg, Pools.setUnlinked] using was
  | dropSet => simpa using was
  | detach => exact was
  | handOver pending holds live empty =>
      simpa [Pools.handOver, Pools.setLinked, Pools.setUnlinked, Pools.modifyCirc, Pools.setCfx,
        last holds live pending empty] using was
  | keep pending holds live empty =>
      simpa [Pools.keep, Pools.setLinked, Pools.setCfx, last holds live pending empty] using was

theorem Closes.neat (closes : Closes d c full d' frames) (h : Neat d) : Neat d' := by
  refine h.mono (closes.owned h.owned) (fun i z isLive => ?_) (closes.inPool h) (fun m v isFound => ?_)
    (fun a => ⟨(closes.circs a).2.1, (closes.circs a).2.2.1⟩) (fun _ mem => closes.untouched.2.2.1 ▸ mem)
    closes.untouched.2.1
  · obtain ⟨y, wasLive, nonce, -⟩ := closes.objects i z isLive
    exact ⟨y, wasLive, nonce⟩
  · obtain ⟨nodup, -, legs⟩ := closes.waits h m v isFound
    exact ⟨nodup, fun a mem => (legs a mem).1⟩

end Closing

/-! ## Launching, linking and freeing -/

theorem setUnlinked_neat (h : Neat d) (found : d.unlinked n = some u) (v : Unlinked)
    (cfx : v.cfx = u.cfx) (isFor : v.isForLinkedSet = u.isForLinkedSet)
    (waits : v.circs.Nodup ∧ ∀ c ∈ v.circs, (d.circs c).pendingNonce = some n) :
    Neat (d.setUnlinked n (some v)) := by
  refine h.mono (setUnlinked_owned h.owned found v cfx isFor) (fun i y live => ⟨y, live, rfl⟩) h.inPool
    (fun m w isFound => ?_) (fun a => ⟨fun _ holds => holds, fun _ pending => pending⟩)
    (fun _ mem => mem) rfl
  simp only [Pools.setUnlinked, Function.update_apply] at isFound
  split at isFound
  · rename_i here
    obtain rfl := Option.some.inj isFound
    rw [here]
    exact waits
  · exact h.waits m w isFound

theorem setCfx_neat (h : Neat d) (live : d.cfxs id = some x) (nonce : x'.nonce = x.nonce)
    (legs : x'.legs = x.legs) : Neat (d.setCfx id (some x')) := by
  refine h.mono (setCfx_owned h.owned live nonce legs) (fun i y isLive => ?_) (fun i y isLive more => ?_)
    h.waits (fun a => ⟨fun _ holds => holds, fun _ pending => pending⟩) (fun _ mem => mem) rfl
  · simp only [Pools.setCfx, Function.update_apply] at isLive
    split at isLive
    · rename_i here
      obtain rfl := Option.some.inj isLive
      exact ⟨x, here ▸ live, nonce.symm⟩
    · exact ⟨y, isLive, rfl⟩
  · simp only [Pools.setCfx, Function.update_apply] at isLive
    split at isLive
    · rename_i here
      obtain rfl := Option.some.inj isLive
      rw [here, nonce]
      exact h.inPool id x live (legs ▸ more)
    · exact h.inPool i y isLive more

theorem deleteSet_neat (h : Neat d) (found : d.unlinked n = some u) : Neat (d.deleteSet n u) := by
  refine h.mono (deleteSet_owned h.owned found) (fun i y live => ⟨y, deleteSet_cfxs live, rfl⟩)
    (fun i y live more => ?_) (fun m w isFound => ?_) (by simp) ?_ ?_
  · rw [deleteSet_linked]
    exact h.inPool i y (deleteSet_cfxs live) more
  · rw [deleteSet_circs]
    rw [deleteSet_unlinked] at isFound
    split at isFound
    · cases isFound
    · exact h.waits m w isFound
  · unfold Pools.deleteSet
    split <;> exact fun _ mem => mem
  · unfold Pools.deleteSet
    split <;> rfl

theorem finalizeSet_neat (h : Neat d) (found : d.unlinked n = some u) (live : d.cfxs u.cfx = some x)
    (isLeg : c ∈ u.circs) : Neat (d.finalizeSet u x) := by
  obtain ⟨nodup, pending⟩ := h.waits n u found
  obtain ⟨y, isLive, nonce, -⟩ := h.owned.unlinked n u found
  obtain rfl := Option.some.inj (isLive.symm.trans live)
  have objects (i : CfxId) (z : Cfx) (live' : (d.finalizeSet u y).cfxs i = some z) :
      i = u.cfx ∧ z.nonce = n ∨ i ≠ u.cfx ∧ d.cfxs i = some z := by
    simp only [Pools.finalizeSet, Function.update_apply] at live'
    split at live'
    · rename_i here
      obtain rfl := Option.some.inj live'
      exact .inl ⟨here, nonce⟩
    · exact .inr ⟨‹_›, live'⟩
  have circs (a : CircId) (notLeg : a ∉ u.circs) : (d.finalizeSet u y).circs a = d.circs a := if_neg notLeg
  have isPending (a : CircId) (m : Nonce) (waits : ((d.finalizeSet u y).circs a).pendingNonce = some m) :
      a ∉ u.circs ∧ (d.circs a).pendingNonce = some m := by
    by_cases mem : a ∈ u.circs
    · simp [Pools.finalizeSet, mem] at waits
    · rw [circs a mem] at waits
      exact ⟨mem, waits⟩
  constructor
  · refine finalizeSet_owned h.owned found live nodup (fun a mem => h.apart a n (pending a mem)) ?_
    exact List.ne_nil_of_mem isLeg
  · intro i j z w live' live'' same
    have unique := h.unique
    rcases objects i z live' with ⟨rfl, isNonce⟩ | ⟨other, wasLive⟩ <;>
      rcases objects j w live'' with ⟨rfl, isNonce'⟩ | ⟨other', wasLive'⟩
    · rfl
    · exact unique _ _ y w live wasLive' ((nonce.trans isNonce.symm).trans same)
    · exact unique _ _ z y wasLive live (same.trans (isNonce'.trans nonce.symm))
    · exact unique _ _ z w wasLive wasLive' same
  · intro i z live' more
    simp only [Pools.finalizeSet, Function.update_apply]
    rcases objects i z live' with ⟨rfl, isNonce⟩ | ⟨other, wasLive⟩
    · rw [if_pos (isNonce.trans nonce.symm)]
    · rw [if_neg fun same => other (h.unique i _ z y wasLive live same)]
      exact h.inPool i z wasLive more
  · intro m w isFound
    simp only [Pools.finalizeSet, Function.update_apply, nonce] at isFound
    split at isFound
    · cases isFound
    · rename_i other
      obtain ⟨nodup', pending'⟩ := h.waits m w isFound
      refine ⟨nodup', fun a mem => ?_⟩
      rw [circs a fun isLeg => other ?_]
      · exact pending' a mem
      · exact Option.some.inj ((pending' a mem).symm.trans (pending a isLeg))
  · intro a m waits
    obtain ⟨notLeg, was⟩ := isPending a m waits
    rw [circs a notLeg]
    exact h.apart a m was
  · intro i z live'
    rcases objects i z live' with ⟨rfl, isNonce⟩ | ⟨other, wasLive⟩
    · rw [isNonce, ← nonce]
      exact h.keys _ y live
    · exact h.keys i z wasLive
  · intro a unborn
    have notLeg : a ∉ u.circs := fun mem => by
      have none := (h.created a unborn).2
      rw [pending a mem] at none
      cases none
    rw [circs a notLeg]
    exact h.created a unborn

theorem rebuild_eq (h : Neat d) (unlinked : d.linked n = none) (gone : d.unlinked n = none)
    (rebuilt : d.rebuild c n id = .ok d') : d' = d.adopt c n id := by
  have unborn := h.owned.fresh d.nextCfx le_rfl
  rcases rebuild_inv rebuilt with ⟨u, found, -⟩ | ⟨d₁, u, created, -, rfl⟩
  · rw [gone] at found
    cases found
  · simp only [Pools.unlinkedGetOrCreate, gone, unlinked] at created
    obtain ⟨rfl, rfl⟩ := Prod.mk.inj created
    simp only [Pools.adopt, Pools.modifyCirc, Pools.setCfx, Pools.setUnlinked, Function.update_idem]
    have same : Function.update d.cfxs d.nextCfx none = d.cfxs := by
      rw [← unborn, Function.update_eq_self]
    rw [same]

theorem adopt_neat (h : Neat d) (holds : (d.circs c).conflux = some id) (live : d.cfxs id = some x)
    (nonce : x.nonce = n) (last : x.legs = []) (gone : d.unlinked n = none) : Neat (d.adopt c n id) := by
  have circs (a : CircId) : (((d.adopt c n id).circs a).pendingNonce = (d.circs a).pendingNonce) ∧
      ∀ i, ((d.adopt c n id).circs a).conflux = some i → (d.circs a).conflux = some i := by
    by_cases here : a = c <;> simp [Pools.adopt, Pools.modifyCirc, here]
  refine h.mono (adopt_owned h.owned holds live nonce last gone) (fun i y isLive => ⟨y, isLive, rfl⟩)
    h.inPool (fun m w isFound => ?_) (fun a => ⟨(circs a).2, fun m pending => (circs a).1 ▸ pending⟩)
    (fun _ mem => List.mem_cons_of_mem _ mem) rfl
  simp only [Pools.adopt, Function.update_apply] at isFound
  split at isFound
  · obtain rfl := Option.some.inj isFound
    exact ⟨List.nodup_nil, by simp [Unlinked.circs]⟩
  · obtain ⟨nodup, pending⟩ := h.waits m w isFound
    exact ⟨nodup, fun a mem => (circs a).1 ▸ pending a mem⟩

theorem getOrCreate_neat (h : Neat d)
    (known : (d.linked n).isSome ∨ (d.unlinked n).isSome ∨ n ∉ d.nonces) :
    Neat (d.unlinkedGetOrCreate n).1 := by
  cases found : d.unlinked n with
  | some u =>
      have same : (d.unlinkedGetOrCreate n).1 = d := by simp only [Pools.unlinkedGetOrCreate, found]
      rw [same]
      exact h
  | none =>
      have owned := getOrCreate_owned h.owned n
      have waits (m : Nonce) (w : Unlinked) (isFound : (d.unlinkedGetOrCreate n).1.unlinked m = some w) :
          w.circs.Nodup ∧ ∀ c ∈ w.circs, (d.circs c).pendingNonce = some m := by
        simp only [Pools.unlinkedGetOrCreate, found, Function.update_apply] at isFound
        split at isFound
        · obtain rfl := Option.some.inj isFound
          split <;> simp [Unlinked.circs]
        · exact h.waits m w isFound
      cases linked : d.linked n with
      | some id =>
          simp only [Pools.unlinkedGetOrCreate, found, linked] at owned waits ⊢
          exact h.mono owned (fun i y live => ⟨y, live, rfl⟩) h.inPool waits
            (fun a => ⟨fun _ holds => holds, fun _ pending => pending⟩)
            (fun _ mem => List.mem_cons_of_mem _ mem) rfl
      | none =>
          have fresh : n ∉ d.nonces := by simpa [linked, found] using known
          have objects (i : CfxId) (y : Cfx) (live : (d.unlinkedGetOrCreate n).1.cfxs i = some y) :
              i = d.nextCfx ∧ y.nonce = n ∧ y.legs = [] ∨ d.cfxs i = some y := by
            simp only [Pools.unlinkedGetOrCreate, found, linked, Function.update_apply] at live
            split at live
            · obtain rfl := Option.some.inj live
              exact .inl ⟨‹_›, rfl, rfl⟩
            · exact .inr live
          have other (i : CfxId) (y : Cfx) (live : d.cfxs i = some y) : y.nonce ≠ n := fun same =>
            fresh (same ▸ h.keys i y live)
          simp only [Pools.unlinkedGetOrCreate, found, linked] at owned waits objects ⊢
          refine ⟨owned, fun i j y z live live' same => ?_, fun i y live more => ?_, waits, h.apart,
            fun i y live => ?_, h.created⟩
          · rcases objects i y live with ⟨rfl, nonce, -⟩ | wasLive <;>
              rcases objects j z live' with ⟨rfl, nonce', -⟩ | wasLive'
            · rfl
            · exact absurd (same.symm.trans nonce) (other j z wasLive')
            · exact absurd (same.trans nonce') (other i y wasLive)
            · exact h.unique i j y z wasLive wasLive' same
          · rcases objects i y live with ⟨-, -, empty⟩ | wasLive
            · exact absurd empty more
            · exact h.inPool i y wasLive more
          · rcases objects i y live with ⟨-, nonce, -⟩ | wasLive
            · rw [nonce]
              exact List.mem_cons_self
            · exact List.mem_cons_of_mem _ (h.keys i y wasLive)

theorem newCircuit_neat (h : Neat d) (live : d.cfxs id = some x) (unborn : c ∉ d.global)
    (path : Option Path) : Neat (d.newCircuit c n id x path) := by
  have counted : Neat (d.setCfx id (some { x with numLegLaunch := x.numLegLaunch + 1 })) :=
    setCfx_neat h live rfl rfl
  obtain ⟨conflux, pending⟩ := h.created c unborn
  have other (a : CircId) (ne : a ≠ c) : (d.newCircuit c n id x path).circs a = d.circs a :=
    Function.update_of_ne ne ..
  have self : ((d.newCircuit c n id x path).circs c).conflux = none := by
    simp [Pools.newCircuit, Circ.plain]
  refine ⟨newCircuit_owned h.owned live conflux path, counted.unique, counted.inPool,
    fun m w found => ?_, fun a m waits => ?_, counted.keys, fun a isUnborn => ?_⟩
  · obtain ⟨nodup, isPending⟩ := h.waits m w found
    refine ⟨nodup, fun a mem => ?_⟩
    have ne : a ≠ c := by
      rintro rfl
      rw [isPending a mem] at pending
      cases pending
    rw [other a ne]
    exact isPending a mem
  · by_cases here : a = c
    · rw [here, self]
    · rw [other a here] at waits ⊢
      exact h.apart a m waits
  · have notMem : a ∉ c :: d.global := isUnborn
    rw [List.mem_cons, not_or] at notMem
    rw [other a notMem.1]
    exact h.created a notMem.2

theorem Frees.neat (frees : Frees d c d') (h : Neat d)
    (last : ∀ id x, (d.circs c).conflux = some id → d.cfxs id = some x → x.legs = [])
    (notLeg : ∀ n u, d.unlinked n = some u → c ∉ u.circs) : Neat d' := by
  have circs (e : Pools) (same : e.circs = d.circs) (a : CircId) :
      (∀ i, ((e.forget c).circs a).conflux = some i → (d.circs a).conflux = some i) ∧
      (∀ m, ((e.forget c).circs a).pendingNonce = some m → (d.circs a).pendingNonce = some m) ∧
      (a ≠ c → (e.forget c).circs a = d.circs a) := by
    by_cases here : a = c <;> simp [Pools.forget, Pools.modifyCirc, here, same]
  have waits (e : Pools) (same : e.circs = d.circs) (m : Nonce) (w : Unlinked)
      (found : d.unlinked m = some w) :
      w.circs.Nodup ∧ ∀ a ∈ w.circs, ((e.forget c).circs a).pendingNonce = some m := by
    obtain ⟨nodup, pending⟩ := h.waits m w found
    refine ⟨nodup, fun a mem => ?_⟩
    rw [(circs e same a).2.2 fun here => notLeg m w found (here ▸ mem)]
    exact pending a mem
  cases frees with
  | plain idle =>
      refine h.mono (modifyCirc_owned h.owned idle.symm) (fun i y live => ⟨y, live, rfl⟩) h.inPool
        (waits d rfl) (fun a => ⟨(circs d rfl a).1, (circs d rfl a).2.1⟩) (fun _ mem => mem) rfl
  | @leg id x x' full holds live legs _ _ more =>
      have empty := last id x holds live
      simp [legs, Pools.cfxDelLeg, empty] at more
  | @last id x full holds live _ gone =>
      have empty := last id x holds live
      have released := release_owned h.owned holds live (by simp [empty]) gone
      have owned := modifyCirc_owned (c := c)
        (f := fun y => { y with conflux := none, pendingNonce := none, freed := true }) released (by
          simp [Pools.modifyCirc])
      have same : (((d.setCfx id none).setLinked x.nonce none).modifyCirc c
          fun y => { y with conflux := none }).modifyCirc c
          (fun y => { y with conflux := none, pendingNonce := none, freed := true }) =
          ((d.setCfx id none).setLinked x.nonce none).forget c := by
        simp [Pools.forget, Pools.modifyCirc]
      rw [same] at owned
      have objects (i : CfxId) (y : Cfx)
          (isLive : (((d.setCfx id none).setLinked x.nonce none).forget c).cfxs i = some y) :
          i ≠ id ∧ d.cfxs i = some y := by
        simp only [Pools.forget, Pools.modifyCirc, Pools.setCfx, Pools.setLinked,
          Function.update_apply] at isLive
        split at isLive
        · cases isLive
        · exact ⟨‹_›, isLive⟩
      refine h.mono owned (fun i y isLive => ⟨y, (objects i y isLive).2, rfl⟩) (fun i y isLive more => ?_)
        (waits _ rfl) (fun a => ⟨(circs _ rfl a).1, (circs _ rfl a).2.1⟩) (fun _ mem => mem) rfl
      obtain ⟨other, wasLive⟩ := objects i y isLive
      simp only [Pools.forget, Pools.modifyCirc, Pools.setCfx, Pools.setLinked, Function.update_apply]
      rw [if_neg fun same => other (h.unique i id y x wasLive live same)]
      exact h.inPool i y wasLive more
  | @pass id x x' u full holds live _ _ _ _ found =>
      have gone := (h.stale holds live (last id x holds live)).2
      rw [gone] at found
      cases found

end Neat
end TorJet.Pool
