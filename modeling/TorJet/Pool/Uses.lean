import TorJet.Pool.Owned

/-!
# Freed objects are not used

Where every object has its owner, no function of the pools uses a freed one, and what is left when the process exits can
be freed.
-/

namespace TorJet.Pool
open Smartlist Base

def Fault.ofOwner : Fault → Bool
  | .danglingConflux | .danglingUnlinked | .notForLinkedSet => true
  | .wrongPurpose | .noExit => false

/-! ## No freed object is used -/

def Uses {α : Type} (outcome : Except Fault α) : Prop := ∃ fault, outcome = .error fault ∧ fault.ofOwner = true

section Uses
variable {α β : Type} {p : Params} {d : Pools} {c : CircId} {n : Nonce} {id : CfxId} {u : Unlinked}

theorem not_uses_ok {a : α} : ¬Uses (Except.ok a) := by
  rintro ⟨fault, failed, -⟩
  cases failed

theorem not_uses_error {fault : Fault} (other : fault.ofOwner = false) : ¬Uses (Except.error fault : Except Fault α) := by
  rintro ⟨_, failed, isUse⟩
  cases failed
  rw [other] at isUse
  cases isUse

theorem not_uses_bind {a : Except Fault α} {f : α → Except Fault β} (first : ¬Uses a)
    (next : ∀ y, a = .ok y → ¬Uses (f y)) : ¬Uses (a >>= f) := by
  cases a with
  | error fault =>
      rintro ⟨fault', failed, isUse⟩
      cases failed
      exact first ⟨fault, rfl, isUse⟩
  | ok y => exact next y rfl

theorem not_uses_getCfx (live : (d.cfxs id).isSome) : ¬Uses (d.getCfx id) := by
  obtain ⟨x, found⟩ := Option.isSome_iff_exists.mp live
  rw [getCfx_ok found]
  exact not_uses_ok

theorem not_uses_freeCfx (live : (d.cfxs id).isSome) : ¬Uses (d.freeCfx id) := by
  unfold Pools.freeCfx
  exact not_uses_bind (not_uses_getCfx live) fun _ _ => not_uses_ok

theorem updated_cfx {x' y : Cfx} {i : CfxId} (live : Function.update d.cfxs id (some x') i = some y) :
    i = id ∧ y = x' ∨ i ≠ id ∧ d.cfxs i = some y := by
  rw [Function.update_apply] at live
  split at live
  · exact .inl ⟨‹_›, (Option.some.inj live).symm⟩
  · exact .inr ⟨‹_›, live⟩

theorem Owned.unlinked_live (h : Owned d) (found : d.unlinked n = some u) : (d.cfxs u.cfx).isSome := by
  obtain ⟨x, live, -⟩ := h.unlinked n u found
  exact Option.isSome_iff_exists.mpr ⟨x, live⟩

theorem Owned.linked_live (h : Owned d) (found : d.linked n = some id) : (d.cfxs id).isSome := by
  obtain ⟨x, live, -⟩ := h.linked n id found
  exact Option.isSome_iff_exists.mpr ⟨x, live⟩

theorem not_uses_unlinkedPoolDelAndFree (live : (d.cfxs u.cfx).isSome) : ¬Uses (d.unlinkedPoolDelAndFree u) := by
  unfold Pools.unlinkedPoolDelAndFree
  refine not_uses_bind (not_uses_getCfx live) fun x _ => ?_
  split
  · exact not_uses_ok
  · exact not_uses_freeCfx live

theorem not_uses_circuitHasClosed (h : Owned d) (c : CircId) (full : Bool) : ¬Uses (d.circuitHasClosed c full) := by
  unfold Pools.circuitHasClosed
  split
  · rename_i n pending
    unfold Pools.unlinkedCircuitClosed
    split
    · exact not_uses_ok
    · rename_i u found
      dsimp only
      split
      · refine not_uses_bind (not_uses_unlinkedPoolDelAndFree ?_) fun _ _ => not_uses_ok
        have live := h.unlinked_live found
        split <;> exact live
      · exact not_uses_ok
  · split
    · rename_i id holds
      unfold Pools.linkedCircuitClosed
      refine not_uses_bind (not_uses_getCfx (h.live c id holds)) fun x _ => ?_
      dsimp only
      split
      · exact not_uses_ok
      · split
        · exact not_uses_ok
        · split <;> exact not_uses_ok
    · exact not_uses_ok

theorem not_uses_markForClose (h : Owned d) (c : CircId) (full : Bool) : ¬Uses (d.markForClose c full) := by
  unfold Pools.markForClose
  split
  · exact not_uses_ok
  · exact not_uses_circuitHasClosed (modifyCirc_owned h rfl) c full

theorem not_uses_markAllForClose (h : Owned d) (n : Nonce) : ¬Uses (d.markAllForClose n) := by
  unfold Pools.markAllForClose
  split
  · exact not_uses_ok
  · rename_i u found
    split
    · exact not_uses_bind (not_uses_unlinkedPoolDelAndFree (h.unlinked_live found)) fun _ _ => not_uses_ok
    · exact not_uses_ok

theorem not_uses_markLinkedForClose (h : Owned d) (n : Nonce) : ¬Uses (d.markLinkedForClose n) := by
  unfold Pools.markLinkedForClose
  split
  · exact not_uses_ok
  · rename_i id found
    refine not_uses_bind (not_uses_getCfx (h.linked_live found)) fun x _ => ?_
    split <;> exact not_uses_ok

theorem not_uses_rebuild (h : Owned d) (c : CircId) (n : Nonce) (id : CfxId) : ¬Uses (d.rebuild c n id) := by
  unfold Pools.rebuild
  have made := getOrCreate_owned h n
  have found := getOrCreate_found d n
  cases created : d.unlinkedGetOrCreate n with
  | mk d₁ u =>
      rw [created] at made found
      dsimp only
      split
      · exact not_uses_bind (not_uses_freeCfx (made.unlinked_live found)) fun _ _ => not_uses_ok
      · exact not_uses_bind not_uses_ok fun _ _ => not_uses_ok

theorem not_uses_afterClose (h : Owned d) (c : CircId) (n : Nonce) : ¬Uses (d.afterClose c n) := by
  unfold Pools.afterClose
  split
  · split
    · rename_i id found
      exact not_uses_bind (not_uses_getCfx (h.linked_live found)) fun _ _ => not_uses_ok
    · split
      · exact not_uses_ok
      · rename_i id holds
        refine not_uses_bind (not_uses_getCfx (h.live c id holds)) fun x _ => ?_
        split
        · exact not_uses_ok
        · exact not_uses_bind (not_uses_rebuild h c n id) fun _ _ => not_uses_ok
  · exact not_uses_ok

theorem not_uses_getExitForNonce (h : Owned d) (n : Nonce) : ¬Uses (d.getExitForNonce n) := by
  have exit (c : CircId) : ¬Uses (Pools.getExitForNonce.exitOf d c) := by
    unfold Pools.getExitForNonce.exitOf
    split
    · exact not_uses_error rfl
    · exact not_uses_ok
  unfold Pools.getExitForNonce
  split
  · rename_i id found
    refine not_uses_bind (not_uses_getCfx (h.linked_live found)) fun x _ => ?_
    split
    · exact not_uses_error rfl
    · exact exit _
  · split
    · exact not_uses_ok
    · split
      · exact not_uses_ok
      · exact exit _

theorem not_uses_launchLeg (h : Owned d) (n : Nonce) (c : CircId) (path : Option Path) : ¬Uses (d.launchLeg p n c path) := by
  unfold Pools.launchLeg
  have made := getOrCreate_owned h n
  have found := getOrCreate_found d n
  cases created : d.unlinkedGetOrCreate n with
  | mk d₁ u =>
      rw [created] at made found
      refine not_uses_bind (not_uses_getCfx (made.unlinked_live found)) fun x _ => ?_
      split
      · exact not_uses_ok
      · refine not_uses_bind (not_uses_getExitForNonce made n) fun exit _ => ?_
        split
        · exact not_uses_ok
        · split <;> exact not_uses_ok

theorem not_uses_processLinked (h : Owned d) (c : CircId) (timely valid : Bool) :
    ¬Uses (d.processLinked p c timely valid) := by
  unfold Pools.processLinked
  split
  · exact not_uses_ok
  · rename_i n u lookup
    obtain ⟨m, -, entry⟩ := Option.bind_eq_some_iff.mp lookup
    obtain ⟨v, found, same⟩ := Option.map_eq_some_iff.mp entry
    obtain ⟨rfl, rfl⟩ := Prod.mk.inj same
    split
    · exact not_uses_ok
    · have live := h.unlinked_live found
      refine not_uses_bind (not_uses_getCfx live) fun x _ => ?_
      split
      · exact not_uses_ok
      · split
        · exact not_uses_ok
        · split <;> exact not_uses_ok

theorem not_uses_addLeg (h : Owned d) {set : Nat} (kept : (d.circs c).marked = true ∨ ∃ u, d.unlinked n = some u ∧ u.id = set) :
    ¬Uses (d.addLeg n set c) := by
  unfold Pools.addLeg
  split
  · exact not_uses_ok
  · rename_i alive
    obtain ⟨u, found, same⟩ := kept.resolve_left alive
    rw [found]
    dsimp only
    rw [if_neg fun other => other same]
    refine not_uses_bind (not_uses_getCfx (h.unlinked_live found)) fun x _ => ?_
    split <;> exact not_uses_ok

theorem owned_link (h : Owned d) (n : Nonce) (c : CircId) :
    Owned (((d.unlinkedGetOrCreate n).1.modifyCirc c fun y => { y with pendingNonce := some n }).setUnlinked n
      (some { (d.unlinkedGetOrCreate n).2 with
        legs := (d.unlinkedGetOrCreate n).2.legs ++ [{ circ := c, linked := true }] })) :=
  setUnlinked_owned (modifyCirc_owned (getOrCreate_owned h n) rfl) (getOrCreate_found d n) _ rfl rfl

theorem not_uses_processLink (h : Owned d) (c : CircId) (n : Nonce) (valid : Bool) :
    ¬Uses (d.processLink p c n valid) := by
  unfold Pools.processLink
  split
  · exact not_uses_ok
  · have linked := owned_link h n c
    have found := getOrCreate_found d n
    have live := (getOrCreate_owned h n).unlinked_live found
    cases created : d.unlinkedGetOrCreate n with
    | mk d₁ u =>
        rw [created] at linked live
        refine not_uses_bind (not_uses_getCfx live) fun x _ => ?_
        split
        · exact not_uses_markForClose linked c false
        · split
          · exact not_uses_bind (not_uses_markForClose linked c false) fun _ _ => not_uses_ok
          · split <;> exact not_uses_ok

end Uses

/-! ## Freeing a circuit -/

def Agrees (d : Pools) : Prop :=
  ∀ c id x u, (d.circs c).conflux = some id → d.cfxs id = some x → d.unlinked x.nonce = some u → u.cfx = id

section Free
variable {d d' : Pools} {c : CircId} {n : Nonce} {id : CfxId} {u : Unlinked} {x : Cfx} {full : Bool}

theorem Owned.leg_of_unlinked (h : Owned d) (agrees : Agrees d) (holds : (d.circs c).conflux = some id)
    (live : d.cfxs id = some x) (found : d.unlinked x.nonce = some u) : c ∈ x.legs ∧ u.isForLinkedSet = true := by
  have shares := agrees c id x u holds live found
  have legs : x.legs ≠ [] := fun empty => (h.closed c id x holds live empty).2 u found shares
  obtain ⟨y, isLive, -, isFor⟩ := h.unlinked x.nonce u found
  obtain rfl := Option.some.inj ((shares ▸ isLive).symm.trans live)
  exact ⟨h.held c id y holds live legs, isFor.mpr legs⟩

theorem not_uses_linkedCircuitFree (h : Owned d) (agrees : Agrees d) (holds : (d.circs c).conflux = some id) :
    ¬Uses (d.linkedCircuitFree c id full) := by
  obtain ⟨x, live⟩ := Option.isSome_iff_exists.mp (h.live c id holds)
  unfold Pools.linkedCircuitFree
  refine not_uses_bind (not_uses_getCfx (h.live c id holds)) fun y deref => ?_
  obtain rfl := Option.some.inj ((getCfx_eq deref).symm.trans live)
  have nonce := cfxDelLeg_nonce y c full
  have passes (v : Unlinked) (found : d.unlinked (Pools.cfxDelLeg y c full).1.nonce = some v) :
      v.isForLinkedSet = true := (h.leg_of_unlinked agrees holds live (nonce ▸ found)).2
  dsimp only
  split
  · refine not_uses_bind (not_uses_error rfl) fun _ thrown => ?_
    cases thrown
  · split
    · exact not_uses_ok
    · split
      · apply not_uses_freeCfx
        simp [Pools.setLinked, Pools.setCfx]
      · rename_i v found
        rw [if_pos (passes v found)]
        exact not_uses_ok

theorem not_uses_circuitAboutToFree (h : Owned d) (agrees : Agrees d) (c : CircId) (full : Bool) :
    ¬Uses (d.circuitAboutToFree c full) := by
  unfold Pools.circuitAboutToFree
  dsimp only
  split
  · rename_i id holds
    exact not_uses_bind (not_uses_linkedCircuitFree h agrees holds) fun _ _ => not_uses_ok
  · split
    · exact not_uses_bind (not_uses_error rfl) fun _ _ => not_uses_ok
    · exact not_uses_bind not_uses_ok fun _ _ => not_uses_ok

theorem forget_owned (h : Owned (d.modifyCirc c fun y => { y with conflux := none })) : Owned (d.forget c) := by
  have gone : ((d.modifyCirc c fun y => { y with conflux := none }).circs c).conflux = none := by
    simp [Pools.modifyCirc]
  have owned := modifyCirc_owned (c := c)
    (f := fun y => { y with conflux := none, pendingNonce := none, freed := true }) h gone.symm
  have same : (d.modifyCirc c fun y => { y with conflux := none }).modifyCirc c
      (fun y => { y with conflux := none, pendingNonce := none, freed := true }) = d.forget c := by
    simp [Pools.forget, Pools.modifyCirc]
  rwa [same] at owned

theorem Frees.owned (frees : Frees d c d') (h : Owned d) (agrees : Agrees d) : Owned d' := by
  cases frees with
  | plain idle => exact modifyCirc_owned h idle.symm
  | @leg id x x' full holds live legs _ nonce more =>
      obtain ⟨nodup, remain⟩ := cfxDelLeg_legs (h.legs id x live).1 c full
      have isLeg : c ∈ x.legs := by
        refine h.held c id x holds live fun empty => more ?_
        rw [legs, List.eq_nil_iff_forall_not_mem]
        intro a mem
        have old := ((remain a).mp mem).1
        rw [empty] at old
        cases old
      rw [← legs] at nodup remain
      exact forget_owned (detach_owned h live isLeg nonce nodup remain more)
  | @last id x full holds live last gone =>
      exact forget_owned (release_owned h holds live (cfxDelLeg_last (h.legs id x live).1 last) gone)
  | @pass id x x' u full holds live legs _ nonce last found isFor =>
      have isLeg := (h.leg_of_unlinked agrees holds live found).1
      have owned := handOver_owned h holds live nonce isLeg
        (cfxDelLeg_last (h.legs id x live).1 (legs ▸ last)) last found (agrees c id x u holds live found)
      rw [Pools.handOver, nonce] at owned
      exact forget_owned owned

theorem Agrees.mono (agrees : Agrees d)
    (circs : ∀ a i, (d'.circs a).conflux = some i → (d.circs a).conflux = some i)
    (objects : ∀ i y, d'.cfxs i = some y → ∃ z, d.cfxs i = some z ∧ z.nonce = y.nonce)
    (sets : ∀ m v, d'.unlinked m = some v → ∃ w, d.unlinked m = some w ∧ w.cfx = v.cfx) : Agrees d' := by
  intro a i y v holds live found
  obtain ⟨z, isLive, nonce⟩ := objects i y live
  obtain ⟨w, isFound, same⟩ := sets y.nonce v found
  rw [← same]
  exact agrees a i z w (circs a i holds) isLive (nonce ▸ isFound)

theorem Frees.agrees (frees : Frees d c d') (agrees : Agrees d) : Agrees d' := by
  have circs (e : Pools) (same : e.circs = d.circs) (a : CircId) (i : CfxId) :
      ((e.forget c).circs a).conflux = some i → (d.circs a).conflux = some i := by
    by_cases here : a = c <;> simp [Pools.forget, Pools.modifyCirc, here, same]
  have objects {i : CfxId} {x x' : Cfx} (live : d.cfxs i = some x) (nonce : x'.nonce = x.nonce) (k : CfxId) (y : Cfx)
      (isLive : Function.update d.cfxs i (some x') k = some y) : ∃ z, d.cfxs k = some z ∧ z.nonce = y.nonce := by
    rw [Function.update_apply] at isLive
    split at isLive
    · rename_i here
      obtain rfl := Option.some.inj isLive
      exact ⟨x, here ▸ live, nonce.symm⟩
    · exact ⟨y, isLive, rfl⟩
  have same (m : Nonce) (v : Unlinked) (found : d.unlinked m = some v) : ∃ w, d.unlinked m = some w ∧ w.cfx = v.cfx :=
    ⟨v, found, rfl⟩
  cases frees with
  | plain => exact agrees.mono (circs d rfl) (fun _ y live => ⟨y, live, rfl⟩) same
  | leg _ live _ _ nonce => exact agrees.mono (circs _ rfl) (objects live nonce) same
  | last _ live =>
      refine agrees.mono (circs _ rfl) (fun k y isLive => ⟨y, ?_, rfl⟩) same
      simp only [Pools.forget, Pools.modifyCirc, Pools.setCfx, Pools.setLinked, Function.update_apply] at isLive
      split at isLive
      · cases isLive
      · exact isLive
  | @pass id x x' u _ _ live _ _ nonce _ found =>
      refine agrees.mono (circs _ rfl) (objects live nonce) fun m v isFound => ?_
      simp only [Pools.forget, Pools.modifyCirc, Pools.setUnlinked, Function.update_apply] at isFound
      split at isFound
      · rename_i here
        obtain rfl := Option.some.inj isFound
        exact ⟨u, here ▸ found, rfl⟩
      · exact ⟨v, isFound, rfl⟩

end Free

/-! ## The end of the process -/

structure Ending (d : Pools) : Prop where
  owned : Owned d
  agrees : Agrees d
  absent : ∀ c, c ∉ d.global ∨ (d.circs c).freed = true → (d.circs c).conflux = none
  keys : ∀ n u, d.unlinked n = some u → n ∈ d.nonces

section Ending
variable {d d' : Pools} {c : CircId} {n : Nonce} {u : Unlinked}

theorem Frees.ending (frees : Frees d c d') (h : Ending d) : Ending d' where
  owned := frees.owned h.owned h.agrees
  agrees := frees.agrees h.agrees
  absent a gone := by
    have circs (e : Pools) (same : e.circs = d.circs) (global : e.global = d.global)
        (gone : a ∉ e.global ∨ ((e.forget c).circs a).freed = true) : ((e.forget c).circs a).conflux = none := by
      by_cases here : a = c
      · simp [Pools.forget, Pools.modifyCirc, here]
      · simp only [Pools.forget, Pools.modifyCirc, Function.update_of_ne here, same] at gone ⊢
        exact h.absent a (global ▸ gone)
    cases frees with
    | plain => exact circs d rfl rfl gone
    | leg => exact circs _ rfl rfl gone
    | last => exact circs _ rfl rfl gone
    | pass => exact circs _ rfl rfl gone
  keys m v found := by
    have nonces : d'.nonces = d.nonces := by cases frees <;> rfl
    obtain ⟨w, before, -⟩ := frees.shrinks.unlinked m v found
    rw [nonces]
    exact h.keys m w before

theorem unlinkedPoolDelAndFree_ok {x : Cfx} (live : d.cfxs u.cfx = some x) :
    d.unlinkedPoolDelAndFree u = .ok (d.deleteSet x.nonce u) := by
  have live' : (d.setUnlinked x.nonce none).cfxs u.cfx = some x := live
  unfold Pools.unlinkedPoolDelAndFree Pools.deleteSet
  rw [getCfx_ok live]
  change (if u.isForLinkedSet then _ else _) = _
  split
  · rfl
  · unfold Pools.freeCfx
    rw [getCfx_ok live']
    rfl

theorem Owned.linked_none (h : Owned d) (free : ∀ c, (d.circs c).conflux = none) (n : Nonce) : d.linked n = none := by
  rw [Option.eq_none_iff_forall_ne_some]
  intro id found
  obtain ⟨x, live, -, legs⟩ := h.linked n id found
  obtain ⟨c, mem⟩ := List.exists_mem_of_ne_nil _ legs
  have holds := (h.legs id x live).2 c mem
  rw [free] at holds
  cases holds

theorem Owned.freeLinked (h : Owned d) (free : ∀ c, (d.circs c).conflux = none) (keys : List Nonce) :
    keys.foldlM Pools.freeLinkedEntry d = .ok d := by
  induction keys with
  | nil => rfl
  | cons n keys ih =>
      have entry : d.freeLinkedEntry n = .ok d := by
        unfold Pools.freeLinkedEntry
        rw [h.linked_none free n]
        rfl
      rw [List.foldlM_cons, entry]
      exact ih

theorem Owned.freeUnlinked (h : Owned d) (free : ∀ c, (d.circs c).conflux = none) (keys : List Nonce) :
    ∃ d', keys.foldlM Pools.freeUnlinkedEntry d = .ok d' ∧ Owned d' ∧ d'.circs = d.circs ∧
      ∀ n u, d'.unlinked n = some u → d.unlinked n = some u ∧ n ∉ keys := by
  induction keys generalizing d with
  | nil => exact ⟨d, rfl, h, rfl, fun n u found => ⟨found, List.not_mem_nil⟩⟩
  | cons n keys ih =>
      cases found : d.unlinked n with
      | none =>
          have entry : d.freeUnlinkedEntry n = .ok d := by
            unfold Pools.freeUnlinkedEntry
            rw [found]
            rfl
          obtain ⟨d', freed, owned, circs, rest⟩ := ih h free
          refine ⟨d', by rw [List.foldlM_cons, entry]; exact freed, owned, circs, fun m u left => ?_⟩
          obtain ⟨before, notKey⟩ := rest m u left
          refine ⟨before, List.not_mem_cons_of_ne_of_not_mem (fun here => ?_) notKey⟩
          rw [here, found] at before
          cases before
      | some u =>
          obtain ⟨x, live, nonce, -⟩ := h.unlinked n u found
          have entry : d.freeUnlinkedEntry n = .ok (d.deleteSet n u) := by
            unfold Pools.freeUnlinkedEntry
            rw [found]
            exact nonce ▸ unlinkedPoolDelAndFree_ok live
          have deleted := deleteSet_owned h found
          obtain ⟨d', freed, owned, circs, rest⟩ := ih deleted (by rw [deleteSet_circs]; exact free)
          refine ⟨d', by rw [List.foldlM_cons, entry]; exact freed, owned, by rw [circs, deleteSet_circs], fun m v left => ?_⟩
          obtain ⟨before, notKey⟩ := rest m v left
          rw [deleteSet_unlinked] at before
          split at before
          · cases before
          · exact ⟨before, List.not_mem_cons_of_ne_of_not_mem ‹_› notKey⟩

theorem Ending.poolFreeAll (h : Ending d) (freed : ∀ c ∈ d.global, (d.circs c).freed = true) :
    ∃ d', d.poolFreeAll = .ok d' ∧ Owned d' ∧ d'.circs = d.circs ∧ ∀ id, d'.cfxs id = none := by
  have free (c : CircId) : (d.circs c).conflux = none := by
    by_cases there : c ∈ d.global
    · exact h.absent c (.inr (freed c there))
    · exact h.absent c (.inl there)
  obtain ⟨d', emptied, owned, circs, left⟩ := h.owned.freeUnlinked free d.nonces
  refine ⟨d', ?_, owned, circs, fun id => ?_⟩
  · unfold Pools.poolFreeAll
    rw [h.owned.freeLinked free]
    exact emptied
  · rw [Option.eq_none_iff_forall_ne_some]
    intro x live
    rcases owned.owner id x live with ⟨c, holds⟩ | ⟨u, found, -⟩
    · rw [circs, free] at holds
      cases holds
    · obtain ⟨before, notKey⟩ := left x.nonce u found
      exact notKey (h.keys x.nonce u before)

end Ending

/-! ## Steps -/

def keepsSet (s : State) : Bool :=
  match s.stack with
  | .addLeg n set c :: _ => (s.pools.circs c).marked || (s.pools.unlinked n).any fun u => u.id = set
  | _ => true

def State.Clean (s : State) : Prop := ∀ fault, s.fault = some fault → fault.ofOwner = false

section Steps
variable {p : Params} {s t : State} {e : Event} {frame : Frame} {rest : List Frame}

theorem clean_of_none (healthy : s.fault = none) : s.Clean := by
  intro fault failed
  rw [healthy] at failed
  cases failed

theorem resume_clean {outcome : Outcome} (healthy : s.fault = none) (sane : ¬Uses outcome) : (s.resume rest outcome).Clean := by
  cases outcome with
  | ok result => exact clean_of_none healthy
  | error fault =>
      intro fault' failed
      obtain rfl := Option.some.inj failed
      rw [← Bool.not_eq_true]
      exact fun isUse => sane ⟨fault, rfl, isUse⟩

theorem finish_clean {phase : Phase} {outcome : Except Fault Pools} (healthy : s.fault = none) (sane : ¬Uses outcome) :
    (s.finish phase outcome).Clean := by
  cases outcome with
  | ok d => exact clean_of_none healthy
  | error fault =>
      intro fault' failed
      obtain rfl := Option.some.inj failed
      rw [← Bool.not_eq_true]
      exact fun isUse => sane ⟨fault, rfl, isUse⟩

theorem continueWith_clean (h : Owned s.pools) (kept : keepsSet s = true) (top : s.stack = frame :: rest)
    (healthy : s.fault = none) (stepped : s.continueWith p rest frame e = some t) : t.Clean := by
  unfold State.continueWith at stepped
  split at stepped
  · obtain rfl := Option.some.inj stepped
    exact resume_clean healthy (not_uses_markForClose h _ _)
  · obtain rfl := Option.some.inj stepped
    exact resume_clean healthy (not_uses_markAllForClose h _)
  · obtain rfl := Option.some.inj stepped
    exact resume_clean healthy (not_uses_markLinkedForClose h _)
  · obtain rfl := Option.some.inj stepped
    exact resume_clean healthy (not_uses_afterClose h _ _)
  · split at stepped
    · cases stepped
    · have sane := not_uses_launchLeg (p := p) h
      split at stepped
      · cases stepped
      · obtain rfl := Option.some.inj stepped
        exact clean_of_none healthy
      · rename_i fault failed
        obtain rfl := Option.some.inj stepped
        intro fault' same
        obtain rfl := Option.some.inj same
        rw [← Bool.not_eq_true]
        exact fun isUse => sane _ _ _ ⟨fault, failed, isUse⟩
  · split at stepped
    · obtain rfl := Option.some.inj stepped
      exact clean_of_none healthy
    · cases stepped
  · obtain rfl := Option.some.inj stepped
    exact clean_of_none healthy
  · obtain rfl := Option.some.inj stepped
    exact clean_of_none healthy
  · obtain rfl := Option.some.inj stepped
    refine resume_clean healthy (not_uses_addLeg h ?_)
    unfold keepsSet at kept
    rw [top] at kept
    rcases Bool.or_eq_true_iff.mp kept with marked | there
    · exact .inl marked
    · obtain ⟨u, found, same⟩ := (Option.any_eq_true _ _).mp there
      exact .inr ⟨u, found, of_decide_eq_true same⟩
  · obtain rfl := Option.some.inj stepped
    exact clean_of_none healthy
  · cases stepped

theorem call_clean (h : Owned s.pools) (agrees : Agrees s.pools) (ending : s.phase = .exiting → Ending s.pools)
    (healthy : s.fault = none) (stepped : s.call p e = some t) : t.Clean := by
  cases e with
  | launchSet | add | close | closeSet | pressure | exit =>
      simp only [State.call] at stepped
      split at stepped
      · obtain rfl := Option.some.inj stepped
        exact clean_of_none healthy
      · cases stepped
  | shutdown =>
      obtain rfl := Option.some.inj stepped
      exact clean_of_none healthy
  | repurpose c full =>
      simp only [State.call] at stepped
      split at stepped
      · obtain rfl := Option.some.inj stepped
        exact resume_clean healthy (not_uses_circuitHasClosed h c full)
      · cases stepped
  | recvLinked c timely valid =>
      simp only [State.call] at stepped
      split at stepped
      · obtain rfl := Option.some.inj stepped
        exact resume_clean healthy (not_uses_processLinked h c timely valid)
      · cases stepped
  | recvLink c n valid =>
      simp only [State.call] at stepped
      split at stepped
      · obtain rfl := Option.some.inj stepped
        refine resume_clean healthy ?_
        split
        · exact not_uses_processLink h c n valid
        · exact not_uses_processLink (d := { s.pools with global := c :: s.pools.global }) { h with } c n valid
      · cases stepped
  | free c full =>
      simp only [State.call] at stepped
      split at stepped
      · obtain rfl := Option.some.inj stepped
        exact finish_clean healthy (not_uses_circuitAboutToFree h agrees c full)
      · cases stepped
  | poolFreeAll =>
      simp only [State.call] at stepped
      split at stepped
      · rename_i guard
        obtain rfl := Option.some.inj stepped
        obtain ⟨d', freed, -⟩ := (ending guard.1).poolFreeAll (List.all_eq_true.mp guard.2)
        rw [freed]
        exact finish_clean healthy not_uses_ok
      · cases stepped
  | run | build | oom | buildFails | built => cases stepped

end Steps

end TorJet.Pool
