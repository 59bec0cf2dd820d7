import TorJet.Pool.State

/-!
# What a step of the client does to the pools

`Closes` says what closing a circuit does, and `Move` what one event does, with the guards under
which it does so. Both are read off the code alone, so that every invariant can use them.
-/

namespace TorJet.Pool
open Smartlist Base

namespace Pools
variable (d : Pools) (c : CircId) (n : Nonce) (id : CfxId) (u : Unlinked) (x : Cfx)

/-- `leg_free` on the leg of a circuit. -/
def clearPending : Pools :=
  if c ∈ u.circs then d.modifyCirc c fun y => { y with pendingNonce := none } else d

def dropLeg : Pools :=
  (d.clearPending c u).setUnlinked n (some { u with legs := remove (fun leg => leg.circ = c) u.legs })

def deleteSet : Pools :=
  if u.isForLinkedSet then d.setUnlinked n none else (d.setUnlinked n none).setCfx u.cfx none

def detach : Pools := (d.setCfx id (some x)).modifyCirc c fun y => { y with conflux := none }

def handOver : Pools :=
  (((d.setCfx id (some x)).setLinked x.nonce none).setUnlinked x.nonce
    (some { u with isForLinkedSet := false })).modifyCirc c fun y => { y with conflux := none }

def keep : Pools := (d.setCfx id (some x)).setLinked x.nonce none

/-- The circuit that `circuit_establish_circuit_conflux` creates. -/
def newCircuit (path : Option Path) : Pools :=
  { d.setCfx id (some { x with numLegLaunch := x.numLegLaunch + 1 }) with
    circs := Function.update d.circs c { Circ.plain with
      pendingNonce := some n, purpose := .confluxUnlinked, launchedFor := some n, path := path }
    global := c :: d.global }

def register : Pools :=
  d.setUnlinked n (some { u with legs := u.legs ++ [{ circ := c, linked := false }] })

def forget : Pools :=
  d.modifyCirc c fun y => { y with conflux := none, pendingNonce := none, freed := true }

def mark : Pools := d.modifyCirc c fun y => { y with marked := true }

/-- The end of `linked_circuit_closed` rebuilds the set around the object of the circuit. -/
def rebuilds : Bool :=
  d.mayLaunch && (d.linked n).isNone &&
    ((d.circs c).conflux.bind d.cfxs).any fun x => !x.inFullTeardown

end Pools

def Unlinked.answer (u : Unlinked) (c : CircId) : Unlinked :=
  { u with legs := u.legs.map fun leg => if leg.circ = c then { leg with linked := true } else leg }

/-- What `conflux_circuit_has_closed` does, and what it leaves to be done. -/
inductive Closes (d : Pools) (c : CircId) (full : Bool) : Pools → List Frame → Prop
  | nothing (idle : (d.circs c).pendingNonce = none → (d.circs c).conflux = none)
      (gone : ∀ n, (d.circs c).pendingNonce = some n → d.unlinked n = none) : Closes d c full d []
  | dropLeg {n : Nonce} {u : Unlinked} (pending : (d.circs c).pendingNonce = some n)
      (found : d.unlinked n = some u) (more : remove (fun leg => leg.circ = c) u.legs ≠ []) :
      Closes d c full (d.dropLeg c n u) (if d.mayLaunch then [.launchLeg n] else [])
  | dropSet {n : Nonce} {u : Unlinked} {x : Cfx} (pending : (d.circs c).pendingNonce = some n)
      (found : d.unlinked n = some u) (live : d.cfxs u.cfx = some x)
      (last : remove (fun leg => leg.circ = c) u.legs = []) :
      Closes d c full ((d.clearPending c u).deleteSet x.nonce u) []
  | detach {id : CfxId} {x : Cfx} {frames : List Frame} (pending : (d.circs c).pendingNonce = none)
      (holds : (d.circs c).conflux = some id) (live : d.cfxs id = some x)
      (more : (Pools.cfxDelLeg x c full).1.legs ≠ [])
      (next : frames = [.afterClose c x.nonce] ∨
        frames = [.markAllForClose x.nonce, .afterClose c x.nonce]) :
      Closes d c full (d.detach c id (Pools.cfxDelLeg x c full).1) frames
  | handOver {id : CfxId} {x : Cfx} {u : Unlinked} {frames : List Frame}
      (pending : (d.circs c).pendingNonce = none) (holds : (d.circs c).conflux = some id)
      (live : d.cfxs id = some x) (last : (Pools.cfxDelLeg x c full).1.legs = [])
      (found : d.unlinked x.nonce = some u) (shares : u.cfx = id)
      (next : frames = [.afterClose c x.nonce] ∨
        frames = [.markAllForClose x.nonce, .afterClose c x.nonce]) :
      Closes d c full (d.handOver c id u (Pools.cfxDelLeg x c full).1) frames
  | keep {id : CfxId} {x : Cfx} {frames : List Frame} (pending : (d.circs c).pendingNonce = none)
      (holds : (d.circs c).conflux = some id) (live : d.cfxs id = some x)
      (last : (Pools.cfxDelLeg x c full).1.legs = [])
      (alone : ∀ u, d.unlinked x.nonce = some u → u.cfx ≠ id)
      (next : frames = [.afterClose c x.nonce] ∨
        frames = [.markAllForClose x.nonce, .afterClose c x.nonce]) :
      Closes d c full (d.keep id (Pools.cfxDelLeg x c full).1) frames

/-- What `conflux_circuit_about_to_free` does. -/
inductive Frees (d : Pools) (c : CircId) : Pools → Prop
  | plain (idle : (d.circs c).conflux = none) : Frees d c (d.forget c)
  | leg {id : CfxId} {x x' : Cfx} {full : Bool} (holds : (d.circs c).conflux = some id)
      (live : d.cfxs id = some x) (legs : x'.legs = (Pools.cfxDelLeg x c full).1.legs)
      (budget : x'.numLegLaunch = (Pools.cfxDelLeg x c full).1.numLegLaunch)
      (nonce : x'.nonce = x.nonce) (more : x'.legs ≠ []) :
      Frees d c ((d.setCfx id (some x')).forget c)
  | last {id : CfxId} {x : Cfx} {full : Bool} (holds : (d.circs c).conflux = some id)
      (live : d.cfxs id = some x) (last : (Pools.cfxDelLeg x c full).1.legs = [])
      (gone : d.unlinked x.nonce = none) :
      Frees d c (((d.setCfx id none).setLinked x.nonce none).forget c)
  | pass {id : CfxId} {x x' : Cfx} {u : Unlinked} {full : Bool} (holds : (d.circs c).conflux = some id)
      (live : d.cfxs id = some x) (legs : x'.legs = (Pools.cfxDelLeg x c full).1.legs)
      (budget : x'.numLegLaunch = (Pools.cfxDelLeg x c full).1.numLegLaunch)
      (nonce : x'.nonce = x.nonce) (last : x'.legs = []) (found : d.unlinked x.nonce = some u)
      (isFor : u.isForLinkedSet = true) :
      Frees d c ((((d.setCfx id (some x')).setLinked x.nonce none).setUnlinked x.nonce
        (some { u with isForLinkedSet := false })).forget c)

section Inversion
variable {d d' : Pools} {c : CircId} {n : Nonce} {id : CfxId} {u : Unlinked} {x : Cfx} {full : Bool}
  {frames : List Frame}

theorem getCfx_ok (found : d.cfxs id = some x) : d.getCfx id = .ok x := by
  rw [Pools.getCfx, found]

theorem getCfx_eq (h : d.getCfx id = .ok x) : d.cfxs id = some x := by
  unfold Pools.getCfx at h
  split at h
  · rename_i live
    rw [live, Except.ok.inj h]
  · cases h

theorem bind_eq_ok {α β : Type} {a : Except Fault α} {f : α → Except Fault β} {b : β}
    (h : (a >>= f) = .ok b) : ∃ y, a = .ok y ∧ f y = .ok b := by
  cases a with
  | error fault => cases h
  | ok y => exact ⟨y, rfl, h⟩

@[simp] theorem cfxDelLeg_nonce (x : Cfx) (c : CircId) (full : Bool) :
    (Pools.cfxDelLeg x c full).1.nonce = x.nonce := by
  unfold Pools.cfxDelLeg
  split <;> rfl

theorem unlinkedPoolDelAndFree_inv (h : d.unlinkedPoolDelAndFree u = .ok d') :
    ∃ x, d.cfxs u.cfx = some x ∧ d' = d.deleteSet x.nonce u := by
  obtain ⟨x, deref, rest⟩ := bind_eq_ok h
  refine ⟨x, getCfx_eq deref, ?_⟩
  unfold Pools.deleteSet
  split at rest
  · rename_i isFor
    rw [if_pos isFor]
    exact (Except.ok.inj rest).symm
  · rename_i isFor
    rw [if_neg isFor]
    obtain ⟨y, -, rest⟩ := bind_eq_ok rest
    exact (Except.ok.inj rest).symm

theorem unlinkedCircuitClosed_inv (pending : (d.circs c).pendingNonce = some n)
    (h : d.unlinkedCircuitClosed c n = .ok (d', frames)) : Closes d c full d' frames := by
  unfold Pools.unlinkedCircuitClosed at h
  cases found : d.unlinked n with
  | none =>
      rw [found] at h
      obtain ⟨rfl, rfl⟩ := Prod.mk.inj (Except.ok.inj h)
      refine .nothing (fun none => ?_) fun m same => ?_
      · rw [pending] at none
        cases none
      · obtain rfl := Option.some.inj (pending.symm.trans same)
        exact found
  | some u =>
      have cleared : (if c ∈ u.circs then d.modifyCirc c fun y => { y with pendingNonce := none } else d) =
        d.clearPending c u := rfl
      have launches : (d.clearPending c u).mayLaunch = d.mayLaunch := by
        unfold Pools.clearPending
        split <;> rfl
      have same : (d.clearPending c u).cfxs = d.cfxs := by
        unfold Pools.clearPending
        split <;> rfl
      simp only [found, cleared] at h
      split at h
      · rename_i last
        obtain ⟨d₁, deleted, rest⟩ := bind_eq_ok h
        obtain ⟨x, live, rfl⟩ := unlinkedPoolDelAndFree_inv deleted
        obtain ⟨rfl, rfl⟩ := Prod.mk.inj (Except.ok.inj rest)
        exact .dropSet pending found (by rwa [same] at live) (by simpa using last)
      · rename_i more
        obtain ⟨rfl, rfl⟩ := Prod.mk.inj (Except.ok.inj h)
        rw [launches]
        exact .dropLeg pending found (by simpa using more)

theorem linkedCircuitClosed_inv (pending : (d.circs c).pendingNonce = none)
    (holds : (d.circs c).conflux = some id)
    (h : d.linkedCircuitClosed c id full = .ok (d', frames)) : Closes d c full d' frames := by
  obtain ⟨x, deref, rest⟩ := bind_eq_ok h
  have live := getCfx_eq deref
  have nonce := cfxDelLeg_nonce x c full
  have next : (if (Pools.cfxDelLeg x c full).2 = true then
        [Frame.markAllForClose (Pools.cfxDelLeg x c full).1.nonce] else []) ++
        [.afterClose c (Pools.cfxDelLeg x c full).1.nonce] = [.afterClose c x.nonce] ∨
      (if (Pools.cfxDelLeg x c full).2 = true then
        [Frame.markAllForClose (Pools.cfxDelLeg x c full).1.nonce] else []) ++
        [.afterClose c (Pools.cfxDelLeg x c full).1.nonce] =
        [.markAllForClose x.nonce, .afterClose c x.nonce] := by
    rw [nonce]
    cases (Pools.cfxDelLeg x c full).2
    · exact .inl rfl
    · exact .inr rfl
  dsimp only at rest
  split at rest
  · rename_i more
    obtain ⟨rfl, rfl⟩ := Prod.mk.inj (Except.ok.inj rest)
    exact .detach pending holds live (by simpa using more) next
  · rename_i last
    have last : (Pools.cfxDelLeg x c full).1.legs = [] := by simpa using last
    have unlinkedSame : ((d.setCfx id (some (Pools.cfxDelLeg x c full).1)).setLinked
        (Pools.cfxDelLeg x c full).1.nonce none).unlinked (Pools.cfxDelLeg x c full).1.nonce =
        d.unlinked x.nonce := by rw [nonce]; rfl
    rw [unlinkedSame] at rest
    cases found : d.unlinked x.nonce with
    | none =>
        rw [found] at rest
        obtain ⟨rfl, rfl⟩ := Prod.mk.inj (Except.ok.inj rest)
        refine .keep pending holds live last (fun u some => ?_) next
        rw [found] at some
        cases some
    | some u =>
        simp only [found] at rest
        split at rest
        · rename_i shares
          obtain ⟨rfl, rfl⟩ := Prod.mk.inj (Except.ok.inj rest)
          exact .handOver pending holds live last found shares next
        · rename_i shares
          obtain ⟨rfl, rfl⟩ := Prod.mk.inj (Except.ok.inj rest)
          refine .keep pending holds live last (fun v some => ?_) next
          obtain rfl := Option.some.inj (found.symm.trans some)
          exact shares

theorem circuitHasClosed_inv (h : d.circuitHasClosed c full = .ok (d', frames)) :
    Closes d c full d' frames := by
  unfold Pools.circuitHasClosed at h
  split at h
  · rename_i n pending
    exact unlinkedCircuitClosed_inv pending h
  · rename_i pending
    split at h
    · rename_i id holds
      exact linkedCircuitClosed_inv pending holds h
    · rename_i idle
      obtain ⟨rfl, rfl⟩ := Prod.mk.inj (Except.ok.inj h)
      refine .nothing (fun _ => idle) fun n some => ?_
      rw [pending] at some
      cases some

theorem circuitAboutToFree_inv (h : d.circuitAboutToFree c full = .ok d') : Frees d c d' := by
  unfold Pools.circuitAboutToFree at h
  split at h
  · rename_i id holds
    obtain ⟨d₁, freed, h⟩ := bind_eq_ok h
    obtain rfl := Except.ok.inj h
    obtain ⟨x, deref, freed⟩ := bind_eq_ok freed
    have live := getCfx_eq deref
    have nonce := cfxDelLeg_nonce x c full
    dsimp only at freed
    split at freed
    · obtain ⟨_, refused, -⟩ := bind_eq_ok freed
      cases refused
    · split at freed
      · rename_i more
        obtain rfl := Except.ok.inj freed
        exact .leg holds live rfl rfl nonce (by simpa using more)
      · rename_i last
        have last : (Pools.cfxDelLeg x c full).1.legs = [] := by simpa using last
        split at freed
        · rename_i gone
          obtain ⟨_, -, freed⟩ := bind_eq_ok freed
          obtain rfl := Except.ok.inj freed
          have gone : d.unlinked x.nonce = none := nonce ▸ gone
          have frees : Frees d c _ := .last holds live last gone
          simpa only [Pools.setCfx, Pools.setLinked, Function.update_idem, nonce, Pools.forget] using frees
        · rename_i u found
          split at freed
          · rename_i isFor
            obtain rfl := Except.ok.inj freed
            have found : d.unlinked x.nonce = some u := nonce ▸ found
            let x' : Cfx := { (Pools.cfxDelLeg x c full).1 with
              inFullTeardown := (Pools.cfxDelLeg x c full).1.inFullTeardown || (Pools.cfxDelLeg x c full).2 }
            have budget : x'.numLegLaunch = (Pools.cfxDelLeg x c full).1.numLegLaunch := rfl
            have frees := Frees.pass holds live (rfl : x'.legs = _) budget nonce last found isFor
            dsimp only [x'] at frees
            simpa only [nonce, Pools.forget] using frees
          · cases freed
  · rename_i idle
    split at h
    · cases h
    · obtain rfl := Except.ok.inj h
      exact .plain idle

theorem clearPending_circs (d : Pools) (c : CircId) (u : Unlinked) (a : CircId) :
    ((d.clearPending c u).circs a).marked = (d.circs a).marked ∧
      ((d.clearPending c u).circs a).conflux = (d.circs a).conflux ∧
      (∀ m, ((d.clearPending c u).circs a).pendingNonce = some m → (d.circs a).pendingNonce = some m) ∧
      (a ≠ c → (d.clearPending c u).circs a = d.circs a) := by
  unfold Pools.clearPending
  split
  · by_cases here : a = c <;> simp [Pools.modifyCirc, here]
  · simp

@[simp] theorem clearPending_unlinked : (d.clearPending c u).unlinked = d.unlinked := by
  unfold Pools.clearPending
  split <;> rfl

@[simp] theorem clearPending_linked : (d.clearPending c u).linked = d.linked := by
  unfold Pools.clearPending
  split <;> rfl

@[simp] theorem clearPending_cfxs : (d.clearPending c u).cfxs = d.cfxs := by
  unfold Pools.clearPending
  split <;> rfl

@[simp] theorem deleteSet_circs : (d.deleteSet n u).circs = d.circs := by
  unfold Pools.deleteSet
  split <;> rfl

@[simp] theorem deleteSet_linked : (d.deleteSet n u).linked = d.linked := by
  unfold Pools.deleteSet
  split <;> rfl

@[simp] theorem deleteSet_unlinked (d : Pools) (n : Nonce) (u : Unlinked) (m : Nonce) :
    (d.deleteSet n u).unlinked m = if m = n then none else d.unlinked m := by
  unfold Pools.deleteSet
  split <;> exact Function.update_apply ..

theorem Closes.circs (closes : Closes d c full d' frames) (a : CircId) :
    (d'.circs a).marked = (d.circs a).marked ∧
      (∀ i, (d'.circs a).conflux = some i → (d.circs a).conflux = some i) ∧
      (∀ m, (d'.circs a).pendingNonce = some m → (d.circs a).pendingNonce = some m) ∧
      (a ≠ c → d'.circs a = d.circs a) := by
  cases closes with
  | nothing => simp
  | @dropLeg n u =>
      obtain ⟨marked, conflux, pending, other⟩ := clearPending_circs d c u a
      exact ⟨marked, fun i holds => conflux ▸ holds, pending, other⟩
  | @dropSet n u x =>
      obtain ⟨marked, conflux, pending, other⟩ := clearPending_circs d c u a
      rw [deleteSet_circs]
      exact ⟨marked, fun i holds => conflux ▸ holds, pending, other⟩
  | detach => by_cases here : a = c <;> simp [Pools.detach, Pools.modifyCirc, Pools.setCfx, here]
  | handOver =>
      by_cases here : a = c <;>
        simp [Pools.handOver, Pools.modifyCirc, Pools.setCfx, Pools.setLinked, Pools.setUnlinked, here]
  | keep => simp [Pools.keep, Pools.setCfx, Pools.setLinked]

theorem Closes.leaves (closes : Closes d c full d' frames) :
    frames = [] ∨
      (∃ n u, frames = [.launchLeg n] ∧ d.mayLaunch ∧ (d.circs c).pendingNonce = some n ∧
        d'.unlinked n = some u) ∨
      ∃ id x, (d.circs c).conflux = some id ∧ d.cfxs id = some x ∧
        (frames = [.afterClose c x.nonce] ∨ frames = [.markAllForClose x.nonce, .afterClose c x.nonce]) := by
  cases closes with
  | nothing => exact .inl rfl
  | @dropLeg n u pending found more =>
      by_cases launches : d.mayLaunch
      · rw [if_pos launches]
        exact .inr (.inl ⟨n, _, rfl, launches, pending, Function.update_self ..⟩)
      · exact .inl (if_neg launches)
  | dropSet => exact .inl rfl
  | detach _ holds live _ next => exact .inr (.inr ⟨_, _, holds, live, next⟩)
  | handOver _ holds live _ _ _ next => exact .inr (.inr ⟨_, _, holds, live, next⟩)
  | keep _ holds live _ _ next => exact .inr (.inr ⟨_, _, holds, live, next⟩)

theorem Closes.untouched (closes : Closes d c full d' frames) :
    d'.side = d.side ∧ d'.global = d.global ∧ d'.nonces = d.nonces ∧
      d'.mayLaunch = d.mayLaunch := by
  have cleared (u : Unlinked) : (d.clearPending c u).side = d.side ∧
      (d.clearPending c u).global = d.global ∧ (d.clearPending c u).nonces = d.nonces ∧
      (d.clearPending c u).mayLaunch = d.mayLaunch := by
    unfold Pools.clearPending
    split <;> exact ⟨rfl, rfl, rfl, rfl⟩
  cases closes with
  | nothing | detach | handOver | keep => exact ⟨rfl, rfl, rfl, rfl⟩
  | dropLeg => exact cleared _
  | dropSet =>
      unfold Pools.deleteSet
      split <;> exact cleared _

theorem getOrCreate_found (d : Pools) (n : Nonce) :
    (d.unlinkedGetOrCreate n).1.unlinked n = some (d.unlinkedGetOrCreate n).2 := by
  unfold Pools.unlinkedGetOrCreate
  split
  · assumption
  · exact Function.update_self ..

theorem getOrCreate_unlinked (d : Pools) {n m : Nonce} (other : m ≠ n) :
    (d.unlinkedGetOrCreate n).1.unlinked m = d.unlinked m := by
  unfold Pools.unlinkedGetOrCreate
  split
  · rfl
  · exact Function.update_of_ne other ..

theorem getOrCreate_frame (d : Pools) (n : Nonce) :
    (d.unlinkedGetOrCreate n).1.circs = d.circs ∧ (d.unlinkedGetOrCreate n).1.linked = d.linked ∧
      (d.unlinkedGetOrCreate n).1.side = d.side ∧ (d.unlinkedGetOrCreate n).1.global = d.global := by
  unfold Pools.unlinkedGetOrCreate
  split <;> exact ⟨rfl, rfl, rfl, rfl⟩

theorem rebuild_inv {c : CircId} {n : Nonce} {id : CfxId} (h : d.rebuild c n id = .ok d') :
    (∃ u, d.unlinked n = some u ∧ u.legs ≠ [] ∧
        d' = d.modifyCirc c fun y => { y with conflux := none }) ∨
      ∃ d₁ u, d.unlinkedGetOrCreate n = (d₁, u) ∧ u.legs = [] ∧
        d' = ((d₁.setUnlinked n (some { u with cfx := id, isForLinkedSet := false })).setCfx
          u.cfx none).modifyCirc c fun y => { y with conflux := none } := by
  unfold Pools.rebuild at h
  cases created : d.unlinkedGetOrCreate n with
  | mk d₁ u =>
      rw [created] at h
      dsimp only at h
      split at h
      · rename_i empty
        obtain ⟨d₂, freed, h⟩ := bind_eq_ok h
        obtain ⟨x, -, freed⟩ := bind_eq_ok freed
        obtain rfl := Except.ok.inj freed
        obtain rfl := Except.ok.inj h
        exact .inr ⟨d₁, u, rfl, by simpa using empty, rfl⟩
      · rename_i legs
        obtain rfl := Except.ok.inj h
        have legs : u.legs ≠ [] := by simpa using legs
        left
        unfold Pools.unlinkedGetOrCreate at created
        split at created
        · rename_i v found
          obtain ⟨rfl, rfl⟩ := Prod.mk.inj created
          exact ⟨v, found, legs, rfl⟩
        · obtain ⟨-, rfl⟩ := Prod.mk.inj created
          exact absurd (by split <;> rfl) legs

end Inversion

inductive Move (p : Params) (d : Pools) : List Frame → Event → Pools → List Frame → Prop
  | launchSet {n : Nonce} (fresh : n ∉ d.nonces) : Move p d [] (.launchSet n) d [.launchLeg n]
  | add {n : Nonce} {c : CircId} (isOpen : d.isOpen c = true) (nonce : d.getNonce c = some n) :
      Move p d [] (.add n) d [.launchLeg n]
  | close {e : Event} {c : CircId} (isOpen : d.isOpen c = true)
      (calls : e = .close c ∨ ∃ timely valid, e = .recvLinked c timely valid) :
      Move p d [] e d [.markForClose c]
  | closeSet {n : Nonce} : Move p d [] (.closeSet n) d [.markAllForClose n]
  | repurpose {c : CircId} {full : Bool} {d' : Pools} {frames : List Frame}
      (isOpen : d.isOpen c = true) (closes : Closes d c full d' frames) :
      Move p d [] (.repurpose c full) d' (frames ++ [.setPurpose c])
  | answer {c : CircId} {timely valid : Bool} {n : Nonce} {u : Unlinked} {frames : List Frame}
      (pending : (d.circs c).pendingNonce = some n) (found : d.unlinked n = some u)
      (next : frames = [] ∨ frames = [.markAllForClose n]) :
      Move p d [] (.recvLinked c timely valid) (d.setUnlinked n (some (u.answer c))) frames
  | finalize {c : CircId} {timely valid : Bool} {n : Nonce} {u : Unlinked} {x : Cfx}
      (pending : (d.circs c).pendingNonce = some n) (found : d.unlinked n = some u) (isLeg : c ∈ u.circs)
      (live : d.cfxs u.cfx = some x) :
      Move p d [] (.recvLinked c timely valid) (d.finalizeSet (u.answer c) x) []
  | free {c : CircId} {full : Bool} {d' : Pools} (marked : (d.circs c).marked = true)
      (frees : Frees d c d') : Move p d [] (.free c full) d' []
  | flags {e : Event} (pressure shuttingDown : Bool) (calls : (∃ under, e = .pressure under) ∨ e = .shutdown) :
      Move p d [] e { d with pressure := pressure, shuttingDown := shuttingDown } []
  | skip {c : CircId} {full : Bool} {rest : List Frame} (marked : (d.circs c).marked = true) :
      Move p d (.markForClose c :: rest) (.run full) d rest
  | mark {c : CircId} {full : Bool} {rest frames : List Frame} {d' : Pools}
      (alive : (d.circs c).marked = false) (closes : Closes (d.mark c) c full d' frames) :
      Move p d (.markForClose c :: rest) (.run full) d' (frames ++ rest)
  | markAll {n : Nonce} {full : Bool} {rest : List Frame} :
      Move p d (.markAllForClose n :: rest) (.run full) d
        (((d.unlinked n).elim [] Unlinked.circs).map .markForClose ++ .markLinkedForClose n :: rest)
  | deleteEmpty {n : Nonce} {full : Bool} {rest : List Frame} {u : Unlinked} {x : Cfx}
      (found : d.unlinked n = some u) (live : d.cfxs u.cfx = some x) (empty : u.legs = []) :
      Move p d (.markAllForClose n :: rest) (.run full) (d.deleteSet x.nonce u)
        (.markLinkedForClose n :: rest)
  | spare {n : Nonce} {full : Bool} {rest : List Frame} :
      Move p d (.markLinkedForClose n :: rest) (.run full) d rest
  | teardown {n : Nonce} {full : Bool} {rest : List Frame} {id : CfxId} {x : Cfx}
      (linked : d.linked n = some id) (live : d.cfxs id = some x) :
      Move p d (.markLinkedForClose n :: rest) (.run full)
        (d.setCfx id (some { x with inFullTeardown := true })) (x.legs.map .markForClose ++ rest)
  | settle {c : CircId} {n : Nonce} {full : Bool} {rest : List Frame} (kept : d.rebuilds c n = false) :
      Move p d (.afterClose c n :: rest) (.run full) d rest
  | refill {c : CircId} {n : Nonce} {full : Bool} {rest : List Frame} (linked : (d.linked n).isSome) :
      Move p d (.afterClose c n :: rest) (.run full) d (.launchLeg n :: rest)
  | rebuild {c : CircId} {n : Nonce} {full : Bool} {rest : List Frame} {id : CfxId} {x : Cfx} {d' : Pools}
      (unlinked : d.linked n = none) (holds : (d.circs c).conflux = some id) (live : d.cfxs id = some x)
      (rebuilt : d.rebuild c n id = .ok d') :
      Move p d (.afterClose c n :: rest) (.run full) d' (.launchLeg n :: rest)
  | refuse {n : Nonce} {c : CircId} {path : Option Path} {rest : List Frame} {d' : Pools}
      {u : Unlinked} {x : Cfx} (unborn : c ∉ d.global) (created : d.unlinkedGetOrCreate n = (d', u))
      (live : d'.cfxs u.cfx = some x) (spent : p.numLegsSet + p.maxUnlinkedLegRetry ≤ x.numLegLaunch) :
      Move p d (.launchLeg n :: rest) (.build c path) d' rest
  | launch {n : Nonce} {c : CircId} {path : Option Path} {rest frames : List Frame} {d' : Pools}
      {u : Unlinked} {x : Cfx} {exit : Option RelayId} (unborn : c ∉ d.global)
      (created : d.unlinkedGetOrCreate n = (d', u)) (live : d'.cfxs u.cfx = some x)
      (allowed : x.numLegLaunch < p.numLegsSet + p.maxUnlinkedLegRetry)
      (lookup : d'.getExitForNonce n = .ok exit)
      (next : path = none ∧ frames = [.markForClose c, .addLeg n u.id c] ∨
        ∃ chosen, path = some chosen ∧ exit.all (· = chosen.exit) ∧ frames = [.establish n u.id c]) :
      Move p d (.launchLeg n :: rest) (.build c path) (d'.newCircuit c n u.cfx x path) (frames ++ rest)
  | oom {n : Nonce} {set : Nat} {c other : CircId} {rest : List Frame} (isOpen : d.isOpen other = true) :
      Move p d (.establish n set c :: rest) (.oom other) { d with pressure := true }
        (.markForClose other :: .establish n set c :: rest)
  | buildFails {n : Nonce} {set : Nat} {c : CircId} {rest : List Frame} :
      Move p d (.establish n set c :: rest) .buildFails d (.markForClose c :: .addLeg n set c :: rest)
  | built {n : Nonce} {set : Nat} {c : CircId} {rest : List Frame} :
      Move p d (.establish n set c :: rest) .built d (.addLeg n set c :: rest)
  | forget {n : Nonce} {set : Nat} {c : CircId} {full : Bool} {rest : List Frame}
      (closed : (d.circs c).marked = true ∨ (d.circs c).pendingNonce = none) :
      Move p d (.addLeg n set c :: rest) (.run full) d rest
  | register {n : Nonce} {c : CircId} {full : Bool} {rest : List Frame} {u : Unlinked}
      (alive : (d.circs c).marked = false) (found : d.unlinked n = some u) :
      Move p d (.addLeg n u.id c :: rest) (.run full) (d.register c n u) rest
  | setPurpose {c : CircId} {full : Bool} {rest : List Frame} :
      Move p d (.setPurpose c :: rest) (.run full) (d.modifyCirc c fun y => { y with purpose := .other })
        rest

section Step
variable {p : Params} {s t : State} {e : Event} {d d' : Pools} {frames : List Frame}

def Moves (p : Params) (s : State) (e : Event) (t : State) : Prop :=
  (∃ fault, t = { s with fault := some fault }) ∨
    t.phase = s.phase ∧ t.fault = s.fault ∧ Move p s.pools s.stack e t.pools t.stack

theorem Moves.resume {rest : List Frame} {outcome : Outcome}
    (moves : ∀ d frames, outcome = .ok (d, frames) → Move p s.pools s.stack e d (frames ++ rest)) :
    Moves p s e (s.resume rest outcome) := by
  cases outcome with
  | error fault => exact .inl ⟨fault, rfl⟩
  | ok result => exact .inr ⟨rfl, rfl, moves _ _ rfl⟩

theorem processLinked_move {c : CircId} {timely valid : Bool} (isOpen : d.isOpen c = true)
    (h : d.processLinked p c timely valid = .ok (d', frames)) :
    Move p d [] (.recvLinked c timely valid) d' frames := by
  unfold Pools.processLinked at h
  split at h
  · obtain ⟨rfl, rfl⟩ := Prod.mk.inj (Except.ok.inj h)
    exact .close isOpen (.inr ⟨timely, valid, rfl⟩)
  · rename_i n u lookup
    obtain ⟨m, pending, entry⟩ := Option.bind_eq_some_iff.mp lookup
    obtain ⟨v, found, same⟩ := Option.map_eq_some_iff.mp entry
    obtain ⟨rfl, rfl⟩ := Prod.mk.inj same
    split at h
    · obtain ⟨rfl, rfl⟩ := Prod.mk.inj (Except.ok.inj h)
      exact .close isOpen (.inr ⟨timely, valid, rfl⟩)
    · rename_i accepted
      have isLeg : c ∈ v.circs := by
        by_contra notLeg
        simp [notLeg] at accepted
      obtain ⟨x, deref, rest⟩ := bind_eq_ok h
      have live := getCfx_eq deref
      split at rest
      · obtain ⟨rfl, rfl⟩ := Prod.mk.inj (Except.ok.inj rest)
        exact .answer pending found (.inl rfl)
      · split at rest
        · obtain ⟨rfl, rfl⟩ := Prod.mk.inj (Except.ok.inj rest)
          exact .answer pending found (.inr rfl)
        · split at rest
          · obtain ⟨rfl, rfl⟩ := Prod.mk.inj (Except.ok.inj rest)
            exact .answer pending found (.inl rfl)
          · obtain ⟨rfl, rfl⟩ := Prod.mk.inj (Except.ok.inj rest)
            exact .finalize pending found isLeg live

theorem call_moves (client : s.pools.side = .client) (running : s.phase = .running)
    (idle : s.stack = []) (inside : e ≠ .exit) (h : s.call p e = some t) : Moves p s e t := by
  cases e with
  | launchSet n =>
      simp only [State.call] at h
      split at h
      · rename_i guard
        obtain rfl := Option.some.inj h
        refine .inr ⟨rfl, rfl, ?_⟩
        rw [idle]
        exact .launchSet guard.2.2
      · cases h
  | add n =>
      simp only [State.call] at h
      split at h
      · rename_i guard
        obtain rfl := Option.some.inj h
        obtain ⟨c, -, found⟩ := List.any_eq_true.mp guard.2.2
        obtain ⟨isOpen, nonce⟩ := Bool.and_eq_true_iff.mp found
        refine .inr ⟨rfl, rfl, ?_⟩
        rw [idle]
        exact .add isOpen (of_decide_eq_true nonce)
      · cases h
  | close c =>
      simp only [State.call] at h
      split at h
      · rename_i guard
        obtain rfl := Option.some.inj h
        refine .inr ⟨rfl, rfl, ?_⟩
        rw [idle]
        exact .close guard.2 (.inl rfl)
      · cases h
  | closeSet n =>
      simp only [State.call, if_pos running] at h
      obtain rfl := Option.some.inj h
      refine .inr ⟨rfl, rfl, ?_⟩
      rw [idle]
      exact .closeSet
  | repurpose c full =>
      simp only [State.call] at h
      split at h
      · rename_i guard
        obtain rfl := Option.some.inj h
        refine Moves.resume fun d frames ok => ?_
        rw [idle]
        exact .repurpose guard.2.2 (circuitHasClosed_inv ok)
      · cases h
  | recvLinked c timely valid =>
      simp only [State.call] at h
      split at h
      · rename_i guard
        obtain rfl := Option.some.inj h
        refine Moves.resume fun d frames ok => ?_
        rw [idle, List.append_nil]
        exact processLinked_move guard.2.2 ok
      · cases h
  | recvLink c n valid => simp [State.call, client] at h
  | free c full =>
      simp only [State.call] at h
      split at h
      · rename_i guard
        obtain rfl := Option.some.inj h
        have marked : (s.pools.circs c).marked = true := by
          rcases guard.2.2 with ⟨-, marked⟩ | exiting
          · exact marked
          · rw [running] at exiting
            cases exiting
        cases freed : s.pools.circuitAboutToFree c full with
        | error fault => exact .inl ⟨fault, rfl⟩
        | ok d =>
            refine .inr ⟨rfl, rfl, ?_⟩
            rw [idle]
            change Move p s.pools [] _ d s.stack
            rw [idle]
            exact .free marked (circuitAboutToFree_inv freed)
      · cases h
  | pressure under =>
      simp only [State.call, if_pos running] at h
      obtain rfl := Option.some.inj h
      refine .inr ⟨rfl, rfl, ?_⟩
      rw [idle]
      exact .flags under s.pools.shuttingDown (.inl ⟨under, rfl⟩)
  | shutdown =>
      obtain rfl := Option.some.inj h
      refine .inr ⟨rfl, rfl, ?_⟩
      rw [idle]
      exact .flags s.pools.pressure true (.inr rfl)
  | exit => exact absurd rfl inside
  | poolFreeAll => simp [State.call, running] at h
  | run full => cases h
  | build c path => cases h
  | oom c => cases h
  | buildFails => cases h
  | built => cases h

theorem markAllForClose_move {n : Nonce} {full : Bool} {rest : List Frame}
    (h : d.markAllForClose n = .ok (d', frames)) :
    Move p d (.markAllForClose n :: rest) (.run full) d' (frames ++ rest) := by
  unfold Pools.markAllForClose at h
  split at h
  · rename_i none
    obtain ⟨rfl, rfl⟩ := Prod.mk.inj (Except.ok.inj h)
    have move : Move p d (.markAllForClose n :: rest) (.run full) d _ := .markAll
    rwa [none] at move
  · rename_i u found
    split at h
    · rename_i empty
      obtain ⟨d₁, deleted, rest⟩ := bind_eq_ok h
      obtain ⟨x, live, rfl⟩ := unlinkedPoolDelAndFree_inv deleted
      obtain ⟨rfl, rfl⟩ := Prod.mk.inj (Except.ok.inj rest)
      exact .deleteEmpty found live (by simpa using empty)
    · obtain ⟨rfl, rfl⟩ := Prod.mk.inj (Except.ok.inj h)
      have move : Move p d (.markAllForClose n :: rest) (.run full) d _ := .markAll
      rw [found] at move
      rwa [List.append_assoc]

theorem markLinkedForClose_move {n : Nonce} {full : Bool} {rest : List Frame}
    (h : d.markLinkedForClose n = .ok (d', frames)) :
    Move p d (.markLinkedForClose n :: rest) (.run full) d' (frames ++ rest) := by
  unfold Pools.markLinkedForClose at h
  split at h
  · obtain ⟨rfl, rfl⟩ := Prod.mk.inj (Except.ok.inj h)
    exact .spare
  · rename_i id linked
    obtain ⟨x, deref, h⟩ := bind_eq_ok h
    split at h
    · obtain ⟨rfl, rfl⟩ := Prod.mk.inj (Except.ok.inj h)
      exact .spare
    · obtain ⟨rfl, rfl⟩ := Prod.mk.inj (Except.ok.inj h)
      exact .teardown linked (getCfx_eq deref)

theorem afterClose_move {c : CircId} {n : Nonce} {full : Bool} {rest : List Frame}
    (h : d.afterClose c n = .ok (d', frames)) :
    Move p d (.afterClose c n :: rest) (.run full) d' (frames ++ rest) := by
  unfold Pools.afterClose at h
  split at h
  · rename_i launches
    split at h
    · rename_i id linked
      obtain ⟨x, deref, h⟩ := bind_eq_ok h
      obtain ⟨rfl, rfl⟩ := Prod.mk.inj (Except.ok.inj h)
      split
      · exact .refill (by rw [linked]; rfl)
      · exact .settle (by simp [Pools.rebuilds, linked])
    · rename_i unlinked
      split at h
      · rename_i none
        obtain ⟨rfl, rfl⟩ := Prod.mk.inj (Except.ok.inj h)
        exact .settle (by simp [Pools.rebuilds, none])
      · rename_i id holds
        obtain ⟨x, deref, h⟩ := bind_eq_ok h
        have live := getCfx_eq deref
        split at h
        · rename_i torn
          obtain ⟨rfl, rfl⟩ := Prod.mk.inj (Except.ok.inj h)
          exact .settle (by simp [Pools.rebuilds, holds, live, torn])
        · obtain ⟨d₁, rebuilt, h⟩ := bind_eq_ok h
          obtain ⟨rfl, rfl⟩ := Prod.mk.inj (Except.ok.inj h)
          exact .rebuild unlinked holds live rebuilt
  · rename_i barred
    obtain ⟨rfl, rfl⟩ := Prod.mk.inj (Except.ok.inj h)
    exact .settle (by simp [Pools.rebuilds, barred])

theorem launchLeg_move {n : Nonce} {c : CircId} {path : Option Path} {rest : List Frame}
    (unborn : c ∉ d.global) (h : d.launchLeg p n c path = .ok (some (d', frames))) :
    Move p d (.launchLeg n :: rest) (.build c path) d' (frames ++ rest) := by
  unfold Pools.launchLeg at h
  cases created : d.unlinkedGetOrCreate n with
  | mk d₁ u =>
      rw [created] at h
      obtain ⟨x, deref, h⟩ := bind_eq_ok h
      have live := getCfx_eq deref
      split at h
      · rename_i spent
        obtain ⟨rfl, rfl⟩ := Prod.mk.inj (Option.some.inj (Except.ok.inj h))
        exact .refuse unborn created live spent
      · rename_i allowed
        obtain ⟨exit, lookup, h⟩ := bind_eq_ok h
        cases path with
        | none =>
            obtain ⟨rfl, rfl⟩ := Prod.mk.inj (Option.some.inj (Except.ok.inj h))
            exact .launch unborn created live (by omega) lookup (.inl ⟨rfl, rfl⟩)
        | some chosen =>
            dsimp only at h
            split at h
            · rename_i same
              obtain ⟨rfl, rfl⟩ := Prod.mk.inj (Option.some.inj (Except.ok.inj h))
              exact .launch unborn created live (by omega) lookup (.inr ⟨chosen, rfl, same, rfl⟩)
            · cases Except.ok.inj h

theorem addLeg_move {n : Nonce} {set : Nat} {c : CircId} {full : Bool} {rest : List Frame}
    (h : d.addLeg n set c = .ok (d', frames)) :
    Move p d (.addLeg n set c :: rest) (.run full) d' (frames ++ rest) := by
  unfold Pools.addLeg at h
  split at h
  · rename_i marked
    obtain ⟨rfl, rfl⟩ := Prod.mk.inj (Except.ok.inj h)
    exact .forget (.inl marked)
  · rename_i alive
    split at h
    · cases h
    · rename_i u found
      dsimp only at h
      split at h
      · obtain ⟨y, refused, -⟩ := bind_eq_ok h
        cases refused
      · rename_i same
        obtain ⟨x, deref, h⟩ := bind_eq_ok h
        obtain rfl : u.id = set := by simpa using same
        split at h
        · rename_i none
          obtain ⟨rfl, rfl⟩ := Prod.mk.inj (Except.ok.inj h)
          exact .forget (.inr (by simpa using none))
        · obtain ⟨rfl, rfl⟩ := Prod.mk.inj (Except.ok.inj h)
          exact .register (by simpa using alive) found

theorem continueWith_moves {frame : Frame} {rest : List Frame} (top : s.stack = frame :: rest)
    (h : s.continueWith p rest frame e = some t) : Moves p s e t := by
  unfold State.continueWith at h
  split at h
  · obtain rfl := Option.some.inj h
    refine Moves.resume fun d frames ok => ?_
    rw [top]
    unfold Pools.markForClose at ok
    split at ok
    · obtain ⟨rfl, rfl⟩ := Prod.mk.inj (Except.ok.inj ok)
      exact .skip ‹_›
    · rename_i alive
      exact .mark (by simpa using alive) (circuitHasClosed_inv ok)
  · obtain rfl := Option.some.inj h
    refine Moves.resume fun d frames ok => ?_
    rw [top]
    exact markAllForClose_move ok
  · obtain rfl := Option.some.inj h
    refine Moves.resume fun d frames ok => ?_
    rw [top]
    exact markLinkedForClose_move ok
  · obtain rfl := Option.some.inj h
    refine Moves.resume fun d frames ok => ?_
    rw [top]
    exact afterClose_move ok
  · split at h
    · cases h
    · rename_i unborn
      split at h
      · cases h
      · rename_i launched
        obtain rfl := Option.some.inj h
        refine Moves.resume fun d frames ok => ?_
        rw [top]
        obtain rfl := Except.ok.inj ok
        exact launchLeg_move unborn launched
      · obtain rfl := Option.some.inj h
        exact .inl ⟨_, rfl⟩
  · split at h
    · obtain rfl := Option.some.inj h
      refine .inr ⟨rfl, rfl, ?_⟩
      rw [top]
      exact .oom ‹_›
    · cases h
  · obtain rfl := Option.some.inj h
    refine .inr ⟨rfl, rfl, ?_⟩
    rw [top]
    exact .buildFails
  · obtain rfl := Option.some.inj h
    refine .inr ⟨rfl, rfl, ?_⟩
    rw [top]
    exact .built
  · obtain rfl := Option.some.inj h
    refine Moves.resume fun d frames ok => ?_
    rw [top]
    exact addLeg_move ok
  · obtain rfl := Option.some.inj h
    refine .inr ⟨rfl, rfl, ?_⟩
    rw [top]
    exact .setPurpose
  · cases h

theorem step_healthy (h : s.step p e = some t) : s.fault = none := by
  unfold State.step at h
  split at h
  · cases h
  · rename_i healthy
    simpa using healthy

theorem step_moves (client : s.pools.side = .client) (running : s.phase = .running)
    (h : s.step p e = some t) : Moves p s e t ∨ s.stack = [] ∧ t = { s with phase := .exiting } := by
  unfold State.step at h
  split at h
  · cases h
  · split at h
    · rename_i idle
      by_cases leaving : e = .exit
      · subst leaving
        simp only [State.call, if_pos running] at h
        exact .inr ⟨idle, (Option.some.inj h).symm⟩
      · exact .inl (call_moves client running idle leaving h)
    · rename_i frame rest top
      exact .inl (continueWith_moves top h)

theorem Move.side {stack stack' : List Frame} (move : Move p d stack e d' stack') :
    d'.side = d.side := by
  cases move with
  | repurpose _ closes => exact closes.untouched.1
  | mark _ closes => exact closes.untouched.1
  | free _ frees => cases frees <;> rfl
  | deleteEmpty =>
      unfold Pools.deleteSet
      split <;> rfl
  | @rebuild c n _ _ _ _ _ _ _ _ rebuilt =>
      rcases rebuild_inv rebuilt with ⟨u, -, -, rfl⟩ | ⟨d₁, u, created, -, rfl⟩
      · rfl
      · have same := (getOrCreate_frame d n).2.2.1
        rwa [created] at same
  | @refuse n _ _ _ _ _ _ _ created =>
      have same := (getOrCreate_frame d n).2.2.1
      rwa [created] at same
  | @launch n _ _ _ _ _ _ _ _ _ created =>
      have same := (getOrCreate_frame d n).2.2.1
      rwa [created] at same
  | _ => rfl

/-! ## Exiting -/

structure Shrinks (d d' : Pools) : Prop where
  unlinked : ∀ n v, d'.unlinked n = some v → ∃ u, d.unlinked n = some u ∧ u.legs = v.legs
  linked : ∀ n id, d'.linked n = some id → d.linked n = some id
  objects : ∀ id y, d'.cfxs id = some y → ∃ x, d.cfxs id = some x ∧ y.numLegLaunch ≤ x.numLegLaunch
  side : d'.side = d.side

theorem Shrinks.refl (d : Pools) : Shrinks d d :=
  ⟨fun _ v found => ⟨v, found, rfl⟩, fun _ _ found => found, fun _ y live => ⟨y, live, le_rfl⟩, rfl⟩

theorem Shrinks.trans {d₁ : Pools} (first : Shrinks d d₁) (second : Shrinks d₁ d') : Shrinks d d' where
  unlinked n v found := by
    obtain ⟨w, between, same⟩ := second.unlinked n v found
    obtain ⟨u, before, same'⟩ := first.unlinked n w between
    exact ⟨u, before, same'.trans same⟩
  linked n id found := first.linked n id (second.linked n id found)
  objects id z live := by
    obtain ⟨y, between, le⟩ := second.objects id z live
    obtain ⟨x, before, le'⟩ := first.objects id y between
    exact ⟨x, before, le.trans le'⟩
  side := second.side.trans first.side

theorem setLinked_none_shrinks {n : Nonce} (same : d'.unlinked = d.unlinked)
    (linked : d'.linked = Function.update d.linked n none)
    (objects : ∀ id y, d'.cfxs id = some y → ∃ x, d.cfxs id = some x ∧ y.numLegLaunch ≤ x.numLegLaunch)
    (side : d'.side = d.side) : Shrinks d d' := by
  refine ⟨fun m v found => ⟨v, by rwa [same] at found, rfl⟩, fun m id found => ?_, objects, side⟩
  rw [linked, Function.update_apply] at found
  split at found
  · cases found
  · exact found

theorem cfxDelLeg_budget (x : Cfx) (c : CircId) (full : Bool) :
    (Pools.cfxDelLeg x c full).1.numLegLaunch ≤ x.numLegLaunch := by
  unfold Pools.cfxDelLeg
  split
  · dsimp only
    split <;> omega
  · exact le_rfl

theorem update_objects {id : CfxId} {x : Cfx} {value : Option Cfx} (live : d.cfxs id = some x)
    (less : ∀ y, value = some y → y.numLegLaunch ≤ x.numLegLaunch) (i : CfxId) (y : Cfx)
    (isLive : Function.update d.cfxs id value i = some y) :
    ∃ x, d.cfxs i = some x ∧ y.numLegLaunch ≤ x.numLegLaunch := by
  rw [Function.update_apply] at isLive
  split at isLive
  · rename_i here
    exact ⟨x, here ▸ live, less y isLive⟩
  · exact ⟨y, isLive, le_rfl⟩

theorem Frees.shrinks {c : CircId} (frees : Frees d c d') : Shrinks d d' := by
  cases frees with
  | plain =>
      exact ⟨fun _ v found => ⟨v, found, rfl⟩, fun _ _ found => found, fun _ y live => ⟨y, live, le_rfl⟩, rfl⟩
  | leg holds live legs budget =>
      refine ⟨fun _ v found => ⟨v, found, rfl⟩, fun _ _ found => found, update_objects live ?_, rfl⟩
      rintro _ ⟨⟩
      exact budget ▸ cfxDelLeg_budget ..
  | last holds live => exact setLinked_none_shrinks rfl rfl (update_objects live (by simp)) rfl
  | @pass id x x' u _ holds live _ budget _ _ found =>
      have first : Shrinks d ((d.setCfx id (some x')).setLinked x.nonce none) := by
        refine setLinked_none_shrinks rfl rfl (update_objects live ?_) rfl
        rintro _ ⟨⟩
        exact budget ▸ cfxDelLeg_budget ..
      refine ⟨fun m v isFound => ?_, first.linked, first.objects, rfl⟩
      simp only [Pools.forget, Pools.modifyCirc, Pools.setUnlinked, Function.update_apply] at isFound
      split at isFound
      · rename_i here
        obtain rfl := Option.some.inj isFound
        exact ⟨u, here ▸ found, rfl⟩
      · exact ⟨v, isFound, rfl⟩

theorem deleteSet_cfxs {n : Nonce} {u : Unlinked} {i : CfxId} {y : Cfx}
    (live : (d.deleteSet n u).cfxs i = some y) : d.cfxs i = some y := by
  unfold Pools.deleteSet at live
  split at live
  · exact live
  · simp only [Pools.setCfx, Pools.setUnlinked, Function.update_apply] at live
    split at live
    · cases live
    · exact live

theorem freeLinkedEntry_shrinks {n : Nonce} (h : d.freeLinkedEntry n = .ok d') : Shrinks d d' := by
  unfold Pools.freeLinkedEntry at h
  split at h
  · obtain rfl := Except.ok.inj h
    exact .refl d
  · obtain ⟨x, deref, h⟩ := bind_eq_ok h
    obtain rfl := Except.ok.inj h
    have live : d.cfxs _ = some x := getCfx_eq deref
    exact setLinked_none_shrinks rfl rfl (update_objects live (by simp)) rfl

theorem freeUnlinkedEntry_shrinks {n : Nonce} (h : d.freeUnlinkedEntry n = .ok d') : Shrinks d d' := by
  unfold Pools.freeUnlinkedEntry at h
  split at h
  · obtain rfl := Except.ok.inj h
    exact .refl d
  · obtain ⟨x, -, rfl⟩ := unlinkedPoolDelAndFree_inv h
    refine ⟨fun m v found => ?_, by simp, fun i y live => ⟨y, deleteSet_cfxs live, le_rfl⟩,
      by unfold Pools.deleteSet; split <;> rfl⟩
    rw [deleteSet_unlinked] at found
    split at found
    · cases found
    · exact ⟨v, found, rfl⟩

theorem foldlM_shrinks {free : Pools → Nonce → Except Fault Pools}
    (shrinks : ∀ d n d', free d n = .ok d' → Shrinks d d') {keys : List Nonce}
    (h : keys.foldlM free d = .ok d') : Shrinks d d' := by
  induction keys generalizing d with
  | nil =>
      obtain rfl := Except.ok.inj h
      exact .refl d
  | cons n keys ih =>
      obtain ⟨d₁, freed, h⟩ := bind_eq_ok h
      exact (shrinks d n d₁ freed).trans (ih h)

theorem poolFreeAll_shrinks (h : d.poolFreeAll = .ok d') : Shrinks d d' := by
  obtain ⟨d₁, linked, unlinked⟩ := bind_eq_ok h
  exact (foldlM_shrinks (fun _ _ _ => freeLinkedEntry_shrinks) linked).trans
    (foldlM_shrinks (fun _ _ _ => freeUnlinkedEntry_shrinks) unlinked)

theorem step_exiting (exiting : s.phase ≠ .running) (idle : s.stack = []) (h : s.step p e = some t) :
    t.phase ≠ .running ∧ t.stack = [] ∧ Shrinks s.pools t.pools := by
  have finished {phase : Phase} (ended : phase ≠ .running) {outcome : Except Fault Pools}
      (shrinks : ∀ d, outcome = .ok d → Shrinks s.pools d) :
      (s.finish phase outcome).phase ≠ .running ∧ (s.finish phase outcome).stack = [] ∧
        Shrinks s.pools (s.finish phase outcome).pools := by
    cases outcome with
    | error fault => exact ⟨exiting, idle, .refl _⟩
    | ok d => exact ⟨ended, idle, shrinks d rfl⟩
  unfold State.step at h
  split at h
  · cases h
  · rw [idle] at h
    cases e with
    | free c full =>
        simp only [State.call] at h
        split at h
        · obtain rfl := Option.some.inj h
          exact finished exiting fun d freed => (circuitAboutToFree_inv freed).shrinks
        · cases h
    | shutdown =>
        obtain rfl := Option.some.inj h
        exact ⟨exiting, idle, fun _ v found => ⟨v, found, rfl⟩, fun _ _ found => found,
          fun _ y live => ⟨y, live, le_rfl⟩, rfl⟩
    | poolFreeAll =>
        simp only [State.call] at h
        split at h
        · obtain rfl := Option.some.inj h
          exact finished (by simp) fun d freed => poolFreeAll_shrinks freed
        · cases h
    | _ => simp [State.call, exiting] at h

theorem client_invariant {allowed : State → Event → Prop} {I : Pools → List Frame → Prop}
    {J : Pools → Prop} (initial : I (State.initial .client).pools [])
    (moves : ∀ s e d' stack', s.pools.side = .client → I s.pools s.stack → allowed s e →
      Move p s.pools s.stack e d' stack' → I d' stack')
    (ended : ∀ d, I d [] → J d) (shrinks : ∀ d d', J d → Shrinks d d' → J d')
    (reach : (State.machine p).Reach allowed (State.initial .client) s) :
    s.pools.side = .client ∧ (s.phase = .running ∧ I s.pools s.stack ∨
      s.phase ≠ .running ∧ s.stack = [] ∧ J s.pools) := by
  induction reach with
  | refl => exact ⟨rfl, .inl ⟨rfl, initial⟩⟩
  | @next s t e _ ok action ih =>
      obtain ⟨client, ⟨running, inv⟩ | ⟨exiting, idle, inv⟩⟩ := ih
      · rcases step_moves client running action with (⟨fault, rfl⟩ | ⟨phase, -, move⟩) | ⟨idle, rfl⟩
        · exact ⟨client, .inl ⟨running, inv⟩⟩
        · exact ⟨move.side.trans client, .inl ⟨phase.trans running, moves s e _ _ client inv ok move⟩⟩
        · rw [idle] at inv
          exact ⟨client, .inr ⟨by simp, idle, ended _ inv⟩⟩
      · obtain ⟨phase, stack, smaller⟩ := step_exiting exiting idle action
        exact ⟨smaller.side.trans client, .inr ⟨phase, stack, shrinks _ _ inv smaller⟩⟩

end Step
end TorJet.Pool
