import TorJet.Pool.Step

/-!
# Who owns a `conflux_t`

An object with legs belongs to the circuits of its legs; one without legs to the one closed circuit
that still points to it, or to the unlinked set that does.
-/

namespace TorJet.Pool
open Smartlist Base

structure Owned (d : Pools) : Prop where
  live : ∀ c id, (d.circs c).conflux = some id → (d.cfxs id).isSome
  held : ∀ c id x, (d.circs c).conflux = some id → d.cfxs id = some x → x.legs ≠ [] → c ∈ x.legs
  closed : ∀ c id x, (d.circs c).conflux = some id → d.cfxs id = some x → x.legs = [] →
    (∀ a, (d.circs a).conflux = some id → a = c) ∧ ∀ u, d.unlinked x.nonce = some u → u.cfx ≠ id
  legs : ∀ id x, d.cfxs id = some x → x.legs.Nodup ∧ ∀ c ∈ x.legs, (d.circs c).conflux = some id
  linked : ∀ n id, d.linked n = some id → ∃ x, d.cfxs id = some x ∧ x.nonce = n ∧ x.legs ≠ []
  unlinked : ∀ n u, d.unlinked n = some u → ∃ x, d.cfxs u.cfx = some x ∧ x.nonce = n ∧
    (u.isForLinkedSet = true ↔ x.legs ≠ [])
  owner : ∀ id x, d.cfxs id = some x → (∃ c, (d.circs c).conflux = some id) ∨
    ∃ u, d.unlinked x.nonce = some u ∧ u.cfx = id
  fresh : ∀ id, d.nextCfx ≤ id → d.cfxs id = none

def Pools.adopt (d : Pools) (c : CircId) (n : Nonce) (id : CfxId) : Pools :=
  { d.modifyCirc c fun y => { y with conflux := none } with
    nextCfx := d.nextCfx + 1
    nextSet := d.nextSet + 1
    nonces := n :: d.nonces
    unlinked := Function.update d.unlinked n
      (some { id := d.nextSet, cfx := id, isForLinkedSet := false, legs := [] }) }

variable {d : Pools} {c : CircId} {n : Nonce} {id : CfxId} {u : Unlinked} {x x' : Cfx}

theorem cfxDelLeg_legs (nodup : x.legs.Nodup) (c : CircId) (full : Bool) :
    (Pools.cfxDelLeg x c full).1.legs.Nodup ∧
      ∀ a, a ∈ (Pools.cfxDelLeg x c full).1.legs ↔ a ∈ x.legs ∧ a ≠ c := by
  unfold Pools.cfxDelLeg
  split
  · have keys := remove_keys id (by simpa using nodup) c
    rw [List.map_id, List.map_id] at keys
    exact keys
  · rename_i notLeg
    exact ⟨nodup, fun a => ⟨fun mem => ⟨mem, fun eq => notLeg (eq ▸ mem)⟩, And.left⟩⟩

theorem cfxDelLeg_last (nodup : x.legs.Nodup) {full : Bool}
    (last : (Pools.cfxDelLeg x c full).1.legs = []) : ∀ a ∈ x.legs, a = c := by
  intro a mem
  by_contra ne
  have kept := ((cfxDelLeg_legs nodup c full).2 a).mpr ⟨mem, ne⟩
  rw [last] at kept
  cases kept

/-! ## Closing keeps ownership -/

theorem modifyCirc_conflux {f : Circ → Circ} (same : (f (d.circs c)).conflux = (d.circs c).conflux)
    (a : CircId) : ((d.modifyCirc c f).circs a).conflux = (d.circs a).conflux := by
  simp only [Pools.modifyCirc, Function.update_apply]
  split
  · rename_i here
    rw [here, same]
  · rfl

theorem modifyCirc_owned (h : Owned d) {f : Circ → Circ}
    (same : (f (d.circs c)).conflux = (d.circs c).conflux) : Owned (d.modifyCirc c f) where
  live a i := by
    rw [modifyCirc_conflux same]
    exact h.live a i
  held a i y := by
    rw [modifyCirc_conflux same]
    exact h.held a i y
  closed a i y := by
    simp only [modifyCirc_conflux same]
    exact h.closed a i y
  legs i y := by
    simp only [modifyCirc_conflux same]
    exact h.legs i y
  linked := h.linked
  unlinked := h.unlinked
  owner i y := by
    simp only [modifyCirc_conflux same]
    exact h.owner i y
  fresh := h.fresh

theorem clearPending_owned (h : Owned d) (c : CircId) (u : Unlinked) : Owned (d.clearPending c u) := by
  unfold Pools.clearPending
  split
  · exact modifyCirc_owned h rfl
  · exact h

theorem setCfx_owned (h : Owned d) (found : d.cfxs id = some x) (nonce : x'.nonce = x.nonce)
    (legs : x'.legs = x.legs) : Owned (d.setCfx id (some x')) := by
  constructor
  all_goals simp only [Pools.setCfx, Function.update_apply]
  · intro a i
    have := h.live a i
    grind
  · intro a i
    have := h.held a i
    grind
  · intro a i
    have := h.closed a i
    grind
  · intro i
    have := h.legs i
    grind
  · intro m i
    have := h.linked m i
    grind
  · intro m w
    have := h.unlinked m w
    grind
  · intro i
    have := h.owner i
    grind
  · intro i le
    have := h.fresh i le
    grind

theorem setUnlinked_owned (h : Owned d) (found : d.unlinked n = some u) (v : Unlinked)
    (cfx : v.cfx = u.cfx) (isFor : v.isForLinkedSet = u.isForLinkedSet) :
    Owned (d.setUnlinked n (some v)) := by
  have old := h.unlinked n u found
  constructor
  all_goals simp only [Pools.setUnlinked, Function.update_apply]
  · exact h.live
  · exact h.held
  · intro a i y holds live empty
    have := h.closed a i y holds live empty
    grind
  · exact h.legs
  · exact h.linked
  · intro m w
    have := h.unlinked m w
    grind
  · intro i y live
    have := h.owner i y live
    grind
  · exact h.fresh

theorem deleteSet_owned (h : Owned d) (found : d.unlinked n = some u) : Owned (d.deleteSet n u) := by
  obtain ⟨x, live, nonce, isFor⟩ := h.unlinked n u found
  have unheld : x.legs = [] → ∀ a, (d.circs a).conflux ≠ some u.cfx := fun empty a holds => by
    have := h.closed a u.cfx x holds live empty
    grind
  have ownerLegs : x.legs ≠ [] → ∃ a, (d.circs a).conflux = some u.cfx := fun some => by
    obtain ⟨a, mem⟩ := List.exists_mem_of_ne_nil _ some
    exact ⟨a, (h.legs _ x live).2 a mem⟩
  unfold Pools.deleteSet
  split
  · constructor
    all_goals simp only [Pools.setUnlinked, Function.update_apply]
    · exact h.live
    · exact h.held
    · intro a i y holds isLive empty
      have := h.closed a i y holds isLive empty
      grind
    · exact h.legs
    · exact h.linked
    · intro m w
      have := h.unlinked m w
      grind
    · intro i y isLive
      have := h.owner i y isLive
      grind
    · exact h.fresh
  · constructor
    all_goals simp only [Pools.setUnlinked, Pools.setCfx, Function.update_apply]
    · intro a i
      have := h.live a i
      grind
    · intro a i y
      have := h.held a i
      grind
    · intro a i y
      have := h.closed a i
      grind
    · intro i y
      have := h.legs i
      grind
    · intro m i isLinked
      have := h.linked m i isLinked
      grind
    · intro m w
      have := h.unlinked m w
      grind
    · intro i y
      have := h.owner i
      grind
    · intro i le
      have := h.fresh i le
      grind

theorem detach_owned (h : Owned d) (found : d.cfxs id = some x) (isLeg : c ∈ x.legs)
    (nonce : x'.nonce = x.nonce) (nodup : x'.legs.Nodup) (legs : ∀ a, a ∈ x'.legs ↔ a ∈ x.legs ∧ a ≠ c)
    (more : x'.legs ≠ []) : Owned (d.detach c id x') := by
  have holders := h.legs id x found
  have holds := holders.2 c isLeg
  obtain ⟨b, other⟩ := List.exists_mem_of_ne_nil _ more
  constructor
  all_goals simp only [Pools.detach, Pools.modifyCirc, Pools.setCfx, Function.update_apply]
  · intro a i
    have := h.live a i
    grind
  · intro a i y
    have := h.held a i
    grind
  · intro a i y
    have := h.closed a i
    grind
  · intro i y
    have := h.legs i
    grind
  · intro m i isLinked
    have := h.linked m i isLinked
    grind
  · intro m w
    have := h.unlinked m w
    grind
  · intro i y
    have := h.owner i
    grind
  · intro i le
    have := h.fresh i le
    grind

theorem handOver_owned (h : Owned d) (holds : (d.circs c).conflux = some id)
    (found : d.cfxs id = some x) (nonce : x'.nonce = x.nonce) (isLeg : c ∈ x.legs)
    (only : ∀ a ∈ x.legs, a = c) (last : x'.legs = []) (unlinked : d.unlinked x.nonce = some u)
    (shares : u.cfx = id) : Owned (d.handOver c id u x') := by
  have alone : ∀ a, (d.circs a).conflux = some id → a = c := fun a isHeld => by
    have mem := h.held a id x isHeld found
    have := h.closed a id x isHeld found
    grind
  constructor
  all_goals simp only [Pools.handOver, Pools.modifyCirc, Pools.setCfx, Pools.setLinked,
    Pools.setUnlinked, Function.update_apply]
  · intro a i
    have := h.live a i
    grind
  · intro a i y
    have := h.held a i
    grind
  · intro a i y
    have := h.closed a i
    grind
  · intro i y
    have := h.legs i
    grind
  · intro m i
    have := h.linked m i
    grind
  · intro m w
    have := h.unlinked m w
    grind
  · intro i y
    have := h.owner i
    grind
  · intro i le
    have := h.fresh i le
    grind

theorem keep_owned (h : Owned d) (holds : (d.circs c).conflux = some id)
    (found : d.cfxs id = some x) (nonce : x'.nonce = x.nonce) (only : ∀ a ∈ x.legs, a = c)
    (last : x'.legs = []) (alone : ∀ u, d.unlinked x.nonce = some u → u.cfx ≠ id) :
    Owned (d.keep id x') := by
  have single : ∀ a, (d.circs a).conflux = some id → a = c := fun a isHeld => by
    have mem := h.held a id x isHeld found
    have := h.closed a id x isHeld found
    grind
  constructor
  all_goals simp only [Pools.keep, Pools.setCfx, Pools.setLinked, Function.update_apply]
  · intro a i
    have := h.live a i
    grind
  · intro a i y
    have := h.held a i
    grind
  · intro a i y
    have := h.closed a i
    grind
  · intro i y
    have := h.legs i
    grind
  · intro m i
    have := h.linked m i
    grind
  · intro m w
    have := h.unlinked m w
    grind
  · intro i y
    have := h.owner i
    grind
  · intro i le
    have := h.fresh i le
    grind

theorem Closes.owned {d' : Pools} {full : Bool} {frames : List Frame}
    (closes : Closes d c full d' frames) (h : Owned d) : Owned d' := by
  cases closes with
  | nothing => exact h
  | @dropLeg n u _ found =>
      refine setUnlinked_owned (u := u) (clearPending_owned h c u) ?_ _ rfl rfl
      unfold Pools.clearPending
      split <;> exact found
  | @dropSet n u x _ found live =>
      obtain ⟨y, same, nonce, -⟩ := h.unlinked n u found
      obtain rfl := Option.some.inj (live.symm.trans same)
      refine deleteSet_owned (clearPending_owned h c u) ?_
      unfold Pools.clearPending
      split <;> rwa [nonce]
  | @detach id x _ _ holds live more =>
      obtain ⟨nodup, legs⟩ := cfxDelLeg_legs (h.legs id x live).1 c full
      have some : x.legs ≠ [] := fun empty => by
        obtain ⟨a, mem⟩ := List.exists_mem_of_ne_nil _ more
        have kept := ((legs a).mp mem).1
        rw [empty] at kept
        cases kept
      exact detach_owned h live (h.held c id x holds live some) (cfxDelLeg_nonce ..) nodup legs more
  | @handOver id x u _ _ holds live last found shares =>
      have isLeg : c ∈ x.legs := by
        by_cases empty : x.legs = []
        · exact absurd shares ((h.closed c id x holds live empty).2 u found)
        · exact h.held c id x holds live empty
      exact handOver_owned h holds live (cfxDelLeg_nonce ..) isLeg
        (cfxDelLeg_last (h.legs id x live).1 last) last found shares
  | @keep id x _ _ holds live last alone =>
      exact keep_owned h holds live (cfxDelLeg_nonce ..) (cfxDelLeg_last (h.legs id x live).1 last)
        last alone

/-! ## Launching, linking and freeing keep ownership -/

theorem getOrCreate_owned (h : Owned d) (n : Nonce) : Owned (d.unlinkedGetOrCreate n).1 := by
  unfold Pools.unlinkedGetOrCreate
  cases unlinked : d.unlinked n with
  | some u => exact h
  | none =>
      cases linked : d.linked n with
      | some id =>
          obtain ⟨x, found, nonce, legs⟩ := h.linked n id linked
          constructor
          all_goals simp only [Function.update_apply]
          · exact h.live
          · exact h.held
          · intro a i y
            have := h.closed a i y
            grind
          · exact h.legs
          · exact h.linked
          · intro m w
            have := h.unlinked m w
            grind
          · intro i y
            have := h.owner i y
            grind
          · intro i le
            exact h.fresh i (by omega)
      | none =>
          have unborn := h.fresh d.nextCfx le_rfl
          constructor
          all_goals simp only [Function.update_apply]
          · intro a i
            have := h.live a i
            grind
          · intro a i
            have := h.held a i
            grind
          · intro a i
            have := h.live a i
            have := h.closed a i
            grind
          · intro i
            have := h.legs i
            grind
          · intro m i
            have := h.linked m i
            grind
          · intro m w isUnlinked
            by_cases here : m = n
            · subst here
              rw [if_pos rfl] at isUnlinked
              obtain rfl := Option.some.inj isUnlinked
              exact ⟨_, if_pos rfl, rfl, by simp⟩
            · have := h.unlinked m w
              grind
          · intro i y isLive
            by_cases here : i = d.nextCfx
            · rw [if_pos here] at isLive
              obtain rfl := Option.some.inj isLive
              exact .inr ⟨_, if_pos rfl, here.symm⟩
            · have := h.owner i y
              grind
          · intro i le
            have := h.fresh i (by omega)
            grind

theorem adopt_owned (h : Owned d) (holds : (d.circs c).conflux = some id) (found : d.cfxs id = some x)
    (nonce : x.nonce = n) (last : x.legs = []) (none : d.unlinked n = none) :
    Owned (d.adopt c n id) := by
  have alone := h.closed c id x holds found last
  constructor
  all_goals simp only [Pools.adopt, Pools.modifyCirc, Function.update_apply]
  · intro a i
    have := h.live a i
    grind
  · intro a i
    have := h.held a i
    grind
  · intro a i
    have := h.closed a i
    grind
  · intro i
    have := h.legs i
    grind
  · exact h.linked
  · intro m w
    have := h.unlinked m w
    grind
  · intro i y isLive
    by_cases here : i = id
    · subst here
      obtain rfl := Option.some.inj (isLive.symm.trans found)
      exact .inr ⟨_, if_pos nonce, rfl⟩
    · have := h.owner i y isLive
      grind
  · intro i le
    exact h.fresh i (by omega)

theorem newCircuit_owned (h : Owned d) (found : d.cfxs id = some x)
    (unborn : (d.circs c).conflux = none) (path : Option Path) : Owned (d.newCircuit c n id x path) :=
  { modifyCirc_owned (d := d.setCfx id (some { x with numLegLaunch := x.numLegLaunch + 1 })) (c := c)
      (f := fun _ => { Circ.plain with
        pendingNonce := some n, purpose := .confluxUnlinked, launchedFor := some n, path := path })
      (setCfx_owned h found rfl rfl) unborn.symm with }

theorem finalizeSet_owned (h : Owned d) (found : d.unlinked n = some u) (live : d.cfxs u.cfx = some x)
    (nodup : u.circs.Nodup) (unheld : ∀ c ∈ u.circs, (d.circs c).conflux = none) (more : u.circs ≠ []) :
    Owned (d.finalizeSet u x) := by
  obtain ⟨y, same, nonce, -⟩ := h.unlinked n u found
  obtain rfl : y = x := Option.some.inj (same.symm.trans live)
  have perm := (drained_perm u.legs).map (·.circ)
  have mem (a : CircId) : a ∈ (drained u.legs).map (·.circ) ↔ a ∈ u.circs := perm.mem_iff
  have holders := h.legs u.cfx y live
  have legsNodup : (y.legs ++ (drained u.legs).map (·.circ)).Nodup :=
    List.nodup_append.mpr ⟨holders.1, perm.nodup_iff.mpr nodup, fun a isLeg b isNew same => by
      have := holders.2 a isLeg
      have := unheld b ((mem b).mp isNew)
      grind⟩
  obtain ⟨first, isFirst⟩ := List.exists_mem_of_ne_nil _ more
  have alone : ∀ a i, (d.circs a).conflux = some i → i = u.cfx → a ∈ y.legs := fun a i holds eq => by
    subst eq
    have := h.held a u.cfx y holds live
    have := h.closed a u.cfx y holds live
    grind
  have conflux (a : CircId) : ((d.finalizeSet u y).circs a).conflux =
      if a ∈ u.circs then some u.cfx else (d.circs a).conflux := by
    simp only [Pools.finalizeSet]
    split <;> rfl
  have cfxs (i : CfxId) (z : Cfx) (isLive : (d.finalizeSet u y).cfxs i = some z) :
      i = u.cfx ∧ z.nonce = n ∧ z.legs = y.legs ++ (drained u.legs).map (·.circ) ∨
        i ≠ u.cfx ∧ d.cfxs i = some z := by
    simp only [Pools.finalizeSet, Function.update_apply] at isLive
    split at isLive
    · rename_i here
      obtain rfl := Option.some.inj isLive
      exact .inl ⟨here, nonce, rfl⟩
    · exact .inr ⟨‹_›, isLive⟩
  constructor
  · intro a i
    rw [conflux]
    have := h.live a i
    simp only [Pools.finalizeSet, Function.update_apply]
    grind
  · intro a i z holds isLive
    rw [conflux] at holds
    have := h.held a i z
    rcases cfxs i z isLive with ⟨here, -, eq⟩ | ⟨other, old⟩ <;> grind
  · intro a i z holds isLive empty
    rcases cfxs i z isLive with ⟨here, -, eq⟩ | ⟨other, old⟩
    · have isNew : first ∈ z.legs := by
        rw [eq]
        exact List.mem_append_right _ ((mem first).mpr isFirst)
      rw [empty] at isNew
      cases isNew
    · have := h.closed a i z
      simp only [conflux] at holds ⊢
      simp only [Pools.finalizeSet, Function.update_apply]
      grind
  · intro i z isLive
    have := h.legs i z
    simp only [conflux]
    rcases cfxs i z isLive with ⟨here, -, eq⟩ | ⟨other, old⟩ <;> grind
  all_goals simp only [Pools.finalizeSet, Function.update_apply]
  · intro m i isLinked
    by_cases here : m = y.nonce
    · rw [if_pos here] at isLinked
      obtain rfl := Option.some.inj isLinked
      refine ⟨_, if_pos rfl, here.symm, fun empty => ?_⟩
      have isNew := (mem first).mpr isFirst
      rw [(List.append_eq_nil_iff.mp empty).2] at isNew
      cases isNew
    · rw [if_neg here] at isLinked
      obtain ⟨z, isLive, isNonce, some⟩ := h.linked m i isLinked
      have other : i ≠ u.cfx := fun eq => by grind
      exact ⟨z, by rw [if_neg other, isLive], isNonce, some⟩
  · intro m w isUnlinked
    have other : m ≠ y.nonce := fun here => by
      rw [if_pos here] at isUnlinked
      cases isUnlinked
    rw [if_neg other] at isUnlinked
    obtain ⟨z, isLive, isNonce, isFor⟩ := h.unlinked m w isUnlinked
    have apart : w.cfx ≠ u.cfx := fun eq => by grind
    exact ⟨z, by rw [if_neg apart, isLive], isNonce, isFor⟩
  · intro i z isLive
    by_cases here : i = u.cfx
    · exact .inl ⟨first, by rw [here, if_pos isFirst]⟩
    · rw [if_neg here] at isLive
      rcases h.owner i z isLive with ⟨a, holds⟩ | ⟨w, isUnlinked, shares⟩
      · have notNew : a ∉ u.circs := fun isNew => by
          rw [unheld a isNew] at holds
          cases holds
        exact .inl ⟨a, by rw [if_neg notNew, holds]⟩
      · exact .inr ⟨w, by grind, shares⟩
  · intro i le
    have := h.fresh i le
    grind

theorem release_owned (h : Owned d) (holds : (d.circs c).conflux = some id)
    (found : d.cfxs id = some x) (only : ∀ a ∈ x.legs, a = c) (gone : d.unlinked x.nonce = none) :
    Owned (((d.setCfx id none).setLinked x.nonce none).modifyCirc c
      fun y => { y with conflux := none }) := by
  have single : ∀ a, (d.circs a).conflux = some id → a = c := fun a isHeld => by
    have mem := h.held a id x isHeld found
    have := h.closed a id x isHeld found
    grind
  constructor
  all_goals simp only [Pools.modifyCirc, Pools.setCfx, Pools.setLinked, Function.update_apply]
  · intro a i
    have := h.live a i
    grind
  · intro a i
    have := h.held a i
    grind
  · intro a i
    have := h.closed a i
    grind
  · intro i
    have := h.legs i
    grind
  · intro m i
    have := h.linked m i
    grind
  · intro m w
    have := h.unlinked m w
    grind
  · intro i
    have := h.owner i
    grind
  · intro i le
    have := h.fresh i le
    grind

end TorJet.Pool
