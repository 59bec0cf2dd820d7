import TorJet.Pool.Neat

/-!
# The pools of a client inside a call

What holds of the pools of a client while its code runs: which circuits wait for a leg, which of them
are under way, and which closed circuits still have an object.
-/

namespace TorJet.Pool
open Smartlist Base

def Frame.circuit : Frame → Option CircId
  | .establish _ _ c | .addLeg _ _ c => some c
  | _ => none

def flying (stack : List Frame) : List CircId := stack.filterMap Frame.circuit

def Pools.Pooled (d : Pools) (n : Nonce) : Prop := (d.linked n).isSome ∨ (d.unlinked n).isSome

structure Sound (d : Pools) (stack : List Frame) : Prop where
  neat : Neat d
  filed : Filed d stack
  alive : ∀ n u, d.unlinked n = some u → ∀ c ∈ u.circs, (d.circs c).marked = false
  linked : ∀ id x, d.cfxs id = some x → ∀ c ∈ x.legs, (d.circs c).marked = false
  stale : ∀ c id x, (d.circs c).conflux = some id → d.cfxs id = some x → x.legs = [] →
    (d.circs c).marked = false → .afterClose c x.nonce ∈ stack
  waiting : ∀ c n, (d.circs c).pendingNonce = some n → (d.circs c).marked = false →
    (∃ u, d.unlinked n = some u ∧ c ∈ u.circs) ∨ ∃ set, InFlight stack n set c
  flies : ∀ n set c, InFlight stack n set c → (d.circs c).pendingNonce = some n ∧ c ∈ d.global ∧
    ∀ m u, d.unlinked m = some u → c ∉ u.circs
  apart : (flying stack).Nodup
  top : ∀ n, stack.head? = some (.launchLeg n) → d.Pooled n ∨ n ∉ d.nonces
  deep : ∀ n, .launchLeg n ∉ stack.tail

def Pools.linkedLeg (d : Pools) (c : CircId) : Option Nonce :=
  if (d.circs c).pendingNonce.isSome then none
  else ((d.circs c).conflux.bind d.cfxs).bind fun x => if c ∈ x.legs then some x.nonce else none

def detaches (s : State) : Bool :=
  match s.stack with
  | .afterClose c n :: _ =>
      (s.pools.circs c).marked || (s.pools.circs c).conflux.isNone || s.pools.rebuilds c n
  | _ => true

section Sound
variable {p : Params} {d d' : Pools} {stack stack' rest : List Frame} {c : CircId} {n : Nonce}
  {id : CfxId} {u : Unlinked} {x x' : Cfx}

theorem mem_flying : c ∈ flying stack ↔ ∃ n set, InFlight stack n set c := by
  unfold flying InFlight
  rw [List.mem_filterMap]
  constructor
  · rintro ⟨frame, mem, eq⟩
    cases frame with
    | establish n set a =>
        obtain rfl := Option.some.inj eq
        exact ⟨n, set, .inl mem⟩
    | addLeg n set a =>
        obtain rfl := Option.some.inj eq
        exact ⟨n, set, .inr mem⟩
    | _ => cases eq
  · rintro ⟨n, set, mem | mem⟩
    · exact ⟨_, mem, rfl⟩
    · exact ⟨_, mem, rfl⟩

theorem Sound.restack (h : Sound d stack)
    (closing : ∀ c n, .afterClose c n ∈ stack' → .afterClose c n ∈ stack)
    (stale : ∀ c id x, (d.circs c).conflux = some id → d.cfxs id = some x → x.legs = [] →
      (d.circs c).marked = false → .afterClose c x.nonce ∈ stack → .afterClose c x.nonce ∈ stack')
    (flight : ∀ n set c, InFlight stack' n set c → InFlight stack n set c)
    (waiting : ∀ n set c, (d.circs c).pendingNonce = some n → (d.circs c).marked = false →
      InFlight stack n set c → InFlight stack' n set c)
    (nodup : (flying stack').Nodup)
    (top : ∀ n, stack'.head? = some (.launchLeg n) → d.Pooled n ∨ n ∉ d.nonces)
    (deep : ∀ n, .launchLeg n ∉ stack'.tail) : Sound d stack' where
  neat := h.neat
  filed := h.filed.fewer closing
  alive := h.alive
  linked := h.linked
  stale c id x holds live last isAlive :=
    stale c id x holds live last isAlive (h.stale c id x holds live last isAlive)
  waiting c n pending isAlive := by
    rcases h.waiting c n pending isAlive with isLeg | ⟨set, flies⟩
    · exact .inl isLeg
    · exact .inr ⟨set, waiting n set c pending isAlive flies⟩
  flies n set c isFlying := h.flies n set c (flight n set c isFlying)
  apart := nodup
  top := top
  deep := deep

theorem Sound.swap (old new rest : List Frame) (h : Sound d (old ++ rest))
    (oldPlain : ∀ f ∈ old, f.circuit = none) (newPlain : ∀ f ∈ new, f.circuit = none)
    (oldClosing : ∀ c n, .afterClose c n ∉ old) (newClosing : ∀ c n, .afterClose c n ∉ new)
    (top : ∀ n, (new ++ rest).head? = some (.launchLeg n) → d.Pooled n ∨ n ∉ d.nonces)
    (deep : ∀ n, .launchLeg n ∉ (new ++ rest).tail) : Sound d (new ++ rest) := by
  have flight {frames : List Frame} (plain : ∀ f ∈ frames, f.circuit = none) (n : Nonce) (set : Nat)
      (c : CircId) : InFlight (frames ++ rest) n set c ↔ InFlight rest n set c := by
    have establish : .establish n set c ∉ frames := fun mem => by cases plain _ mem
    have addLeg : .addLeg n set c ∉ frames := fun mem => by cases plain _ mem
    simp [InFlight, establish, addLeg]
  have fly {frames : List Frame} (plain : ∀ f ∈ frames, f.circuit = none) :
      flying (frames ++ rest) = flying rest := by
    unfold flying
    rw [List.filterMap_append, List.filterMap_eq_nil_iff.mpr plain, List.nil_append]
  refine h.restack (fun c n mem => ?_) (fun c id x _ _ _ _ mem => ?_) (fun n set c => ?_)
    (fun n set c _ _ => ?_) ?_ top deep
  · rcases List.mem_append.mp mem with new | old
    · exact absurd new (newClosing c n)
    · exact List.mem_append_right _ old
  · rcases List.mem_append.mp mem with isOld | kept
    · exact absurd isOld (oldClosing c _)
    · exact List.mem_append_right _ kept
  · rw [flight oldPlain, flight newPlain]
    exact fun flies => flies
  · rw [flight oldPlain, flight newPlain]
    exact fun flies => flies
  · rw [fly newPlain, ← fly oldPlain]
    exact h.apart

/-! ## Closing -/

structure Closable (d : Pools) (c : CircId) (rest : List Frame) : Prop where
  neat : Neat d
  filed : Filed d rest
  alive : ∀ n u, d.unlinked n = some u → ∀ a ∈ u.circs, a ≠ c → (d.circs a).marked = false
  linked : ∀ id x, d.cfxs id = some x → ∀ a ∈ x.legs, a ≠ c → (d.circs a).marked = false
  stale : ∀ a id x, a ≠ c → (d.circs a).conflux = some id → d.cfxs id = some x → x.legs = [] →
    (d.circs a).marked = false → .afterClose a x.nonce ∈ rest
  waiting : ∀ a n, a ≠ c → (d.circs a).pendingNonce = some n → (d.circs a).marked = false →
    (∃ u, d.unlinked n = some u ∧ a ∈ u.circs) ∨ ∃ set, InFlight rest n set a
  flies : ∀ n set a, InFlight rest n set a → (d.circs a).pendingNonce = some n ∧ a ∈ d.global ∧
    ∀ m u, d.unlinked m = some u → a ∉ u.circs
  self : (d.circs c).marked = true ∨ ∀ n, (d.circs c).pendingNonce = some n →
    ∃ u, d.unlinked n = some u ∧ c ∈ u.circs
  apart : (flying rest).Nodup
  deep : ∀ n, .launchLeg n ∉ rest

theorem Closes.sound {full : Bool} {frames : List Frame} (closes : Closes d c full d' frames)
    (h : Closable d c rest) : Sound d' (frames ++ rest) := by
  have plain (f : Frame) (mem : f ∈ frames) : f.circuit = none := by
    rcases closes.leaves with rfl | ⟨m, v, rfl, -⟩ | ⟨id, x, -, -, rfl | rfl⟩
    · cases mem
    · obtain rfl := List.mem_singleton.mp mem
      rfl
    · obtain rfl := List.mem_singleton.mp mem
      rfl
    · simp only [List.mem_cons, List.not_mem_nil, or_false] at mem
      rcases mem with rfl | rfl <;> rfl
  have flight (n : Nonce) (set : Nat) (a : CircId) :
      InFlight (frames ++ rest) n set a ↔ InFlight rest n set a := by
    have none := closes.not_inFlight n set a
    simp only [InFlight, List.mem_append] at none ⊢
    tauto
  have same (a : CircId) := closes.circs a
  constructor
  · exact closes.neat h.neat
  · exact closes.filed h.filed fun _ _ mem => mem
  · intro n v found a mem
    obtain ⟨-, notLeg, legs⟩ := closes.waits h.neat n v found
    obtain ⟨-, w, was, wasLeg⟩ := legs a mem
    rw [(same a).1]
    exact h.alive n w was a wasLeg fun here => notLeg (here ▸ mem)
  · intro id z live a mem
    obtain ⟨ne, y, wasLive, wasLeg⟩ := closes.legs h.neat live mem
    rw [(same a).1]
    exact h.linked id y wasLive a wasLeg ne
  · intro a i z holds live last isAlive
    have held := (same a).2.1 i holds
    rw [(same a).1] at isAlive
    obtain ⟨y, wasLive, nonce, changed⟩ := closes.objects i z live
    by_cases here : a = c
    · subst here
      apply List.mem_append_left
      have idle := h.neat.linked_idle held
      cases closes with
      | nothing gone =>
          rw [gone idle] at held
          cases held
      | dropLeg pending | dropSet pending =>
          rw [pending] at idle
          cases idle
      | detach => simp [Pools.detach, Pools.modifyCirc] at holds
      | handOver => simp [Pools.handOver, Pools.modifyCirc] at holds
      | @keep id x _ _ isHeld isLive _ _ next =>
          obtain rfl := Option.some.inj (isHeld.symm.trans held)
          obtain rfl := Option.some.inj (isLive.symm.trans wasLive)
          rw [← nonce]
          rcases next with rfl | rfl <;> simp
    · apply List.mem_append_right
      rcases changed with ⟨rfl, -⟩ | ⟨-, isHeld, rfl⟩
      · exact h.stale a i z here held wasLive last isAlive
      · by_cases empty : y.legs = []
        · exact absurd ((h.neat.owned.closed c i y isHeld wasLive empty).1 a held) here
        · have isLeg := h.neat.owned.held a i y held wasLive empty
          have kept := ((cfxDelLeg_legs (h.neat.owned.legs i y wasLive).1 c full).2 a).mpr ⟨isLeg, here⟩
          rw [last] at kept
          cases kept
  · intro a n pending isAlive
    have waits := (same a).2.2.1 n pending
    rw [(same a).1] at isAlive
    by_cases here : a = c
    · subst here
      rcases h.self with marked | legs
      · rw [marked] at isAlive
        cases isAlive
      · obtain ⟨u, found, isLeg⟩ := legs n waits
        rw [closes.pending waits] at pending
        simp [found, isLeg] at pending
    · rcases h.waiting a n here waits isAlive with ⟨u, found, isLeg⟩ | ⟨set, flies⟩
      · exact .inl (closes.keeps h.neat found isLeg here)
      · exact .inr ⟨set, (flight n set a).mpr flies⟩
  · intro n set a flies
    obtain ⟨pending, born, notLeg⟩ := h.flies n set a ((flight n set a).mp flies)
    refine ⟨?_, ?_, fun m v found mem => ?_⟩
    · by_cases here : a = c
      · subst here
        rw [closes.pending pending, if_neg]
        intro isLeg
        obtain ⟨u, found, mem⟩ := (Option.any_eq_true _ _).mp isLeg
        exact notLeg n u found (of_decide_eq_true mem)
      · rw [(same a).2.2.2 here]
        exact pending
    · rw [closes.untouched.2.1]
      exact born
    · obtain ⟨-, -, legs⟩ := closes.waits h.neat m v found
      obtain ⟨-, w, was, wasLeg⟩ := legs a mem
      exact notLeg m w was wasLeg
  · unfold flying
    rw [List.filterMap_append, List.filterMap_eq_nil_iff.mpr plain, List.nil_append]
    exact h.apart
  · intro n head
    rcases closes.leaves with rfl | ⟨m, v, rfl, -, -, found⟩ | ⟨id, x, -, -, rfl | rfl⟩
    · exact absurd (List.mem_of_mem_head? head) (h.deep n)
    · obtain rfl : m = n := by simpa using head
      exact .inl (.inr (by rw [found]; rfl))
    · simp at head
    · simp at head
  · intro n mem
    apply h.deep n
    rcases closes.leaves with rfl | ⟨m, v, rfl, -⟩ | ⟨id, x, -, -, rfl | rfl⟩
    · exact List.mem_of_mem_tail mem
    · exact mem
    · exact mem
    · simpa using mem

theorem mark_sound {full : Bool} {frames : List Frame} (h : Sound d (.markForClose c :: rest))
    (closes : Closes (d.mark c) c full d' frames) : Sound d' (frames ++ rest) := by
  have circs (a : CircId) : ((d.mark c).circs a).conflux = (d.circs a).conflux ∧
      ((d.mark c).circs a).pendingNonce = (d.circs a).pendingNonce ∧
      (a ≠ c → ((d.mark c).circs a).marked = (d.circs a).marked) := by
    by_cases here : a = c <;> simp [Pools.mark, Pools.modifyCirc, here]
  have flight (n : Nonce) (set : Nat) (a : CircId) :
      InFlight (.markForClose c :: rest) n set a ↔ InFlight rest n set a := by simp [InFlight]
  apply closes.sound
  constructor
  · exact modifyCirc_neat h.neat rfl rfl
  · exact (modifyCirc_filed h.filed (by simp)).fewer (by simp)
  · intro n u found a mem ne
    rw [(circs a).2.2 ne]
    exact h.alive n u found a mem
  · intro id x live a mem ne
    rw [(circs a).2.2 ne]
    exact h.linked id x live a mem
  · intro a id x ne holds live last isAlive
    rw [(circs a).1] at holds
    rw [(circs a).2.2 ne] at isAlive
    simpa using h.stale a id x holds live last isAlive
  · intro a n ne pending isAlive
    rw [(circs a).2.1] at pending
    rw [(circs a).2.2 ne] at isAlive
    simp only [← flight]
    exact h.waiting a n pending isAlive
  · intro n set a flies
    rw [(circs a).2.1]
    exact h.flies n set a ((flight n set a).mpr flies)
  · left
    simp [Pools.mark, Pools.modifyCirc]
  · exact h.apart
  · exact h.deep

theorem repurpose_sound {full : Bool} {frames : List Frame} (h : Sound d [])
    (isOpen : (d.circs c).marked = false) (closes : Closes d c full d' frames) :
    Sound d' (frames ++ [.setPurpose c]) := by
  have none (n : Nonce) (set : Nat) (a : CircId) : ¬ InFlight [.setPurpose c] n set a := by
    simp [InFlight]
  apply closes.sound
  constructor
  · exact h.neat
  · exact h.filed.fewer (by simp)
  · exact fun n u found a mem _ => h.alive n u found a mem
  · exact fun id x live a mem _ => h.linked id x live a mem
  · intro a id x _ holds live last isAlive
    exact absurd (h.stale a id x holds live last isAlive) (by simp)
  · intro a n _ pending isAlive
    rcases h.waiting a n pending isAlive with isLeg | ⟨set, flies⟩
    · exact .inl isLeg
    · exact absurd flies not_inFlight_nil
  · exact fun n set a flies => absurd flies (none n set a)
  · right
    intro n pending
    rcases h.waiting c n pending isOpen with isLeg | ⟨set, flies⟩
    · exact isLeg
    · exact absurd flies not_inFlight_nil
  · exact List.nodup_nil
  · simp

/-! ## The other moves -/

theorem answer_circs (u : Unlinked) (c : CircId) : (u.answer c).circs = u.circs := by
  simp only [Unlinked.answer, Unlinked.circs, List.map_map]
  apply List.map_congr_left
  intro leg _
  simp only [Function.comp]
  split <;> rfl

theorem flags_sound (h : Sound d stack) (pressure shuttingDown : Bool) :
    Sound { d with pressure := pressure, shuttingDown := shuttingDown } stack :=
  { h with
    neat := { h.neat with owned := { h.neat.owned with } }
    filed := { h.filed with } }

theorem modifyCirc_sound {f : Circ → Circ} (h : Sound d stack)
    (conflux : (f (d.circs c)).conflux = (d.circs c).conflux)
    (pending : (f (d.circs c)).pendingNonce = (d.circs c).pendingNonce)
    (marked : (f (d.circs c)).marked = (d.circs c).marked) : Sound (d.modifyCirc c f) stack := by
  have circs (a : CircId) : ((d.modifyCirc c f).circs a).conflux = (d.circs a).conflux ∧
      ((d.modifyCirc c f).circs a).pendingNonce = (d.circs a).pendingNonce ∧
      ((d.modifyCirc c f).circs a).marked = (d.circs a).marked := by
    by_cases here : a = c <;> simp [Pools.modifyCirc, here, conflux, pending, marked]
  constructor
  · exact modifyCirc_neat h.neat conflux pending
  · exact modifyCirc_filed h.filed (by simp [conflux])
  · intro n u found a mem
    rw [(circs a).2.2]
    exact h.alive n u found a mem
  · intro id x live a mem
    rw [(circs a).2.2]
    exact h.linked id x live a mem
  · intro a id x
    rw [(circs a).1, (circs a).2.2]
    exact h.stale a id x
  · intro a n
    rw [(circs a).2.1, (circs a).2.2]
    exact h.waiting a n
  · intro n set a
    rw [(circs a).2.1]
    exact h.flies n set a
  · exact h.apart
  · exact h.top
  · exact h.deep

theorem setUnlinked_sound (h : Sound d stack) (found : d.unlinked n = some u) (v : Unlinked)
    (cfx : v.cfx = u.cfx) (isFor : v.isForLinkedSet = u.isForLinkedSet) (circs : v.circs = u.circs) :
    Sound (d.setUnlinked n (some v)) stack := by
  have unlinked (m : Nonce) (w : Unlinked) (isFound : (d.setUnlinked n (some v)).unlinked m = some w) :
      ∃ was, d.unlinked m = some was ∧ w.circs = was.circs := by
    simp only [Pools.setUnlinked, Function.update_apply] at isFound
    split at isFound
    · rename_i here
      obtain rfl := Option.some.inj isFound
      exact ⟨u, here ▸ found, circs⟩
    · exact ⟨w, isFound, rfl⟩
  constructor
  · exact setUnlinked_neat h.neat found v cfx isFor (circs ▸ h.neat.waits n u found)
  · exact setUnlinked_filed h.filed found cfx
  · intro m w isFound a mem
    obtain ⟨was, wasFound, same⟩ := unlinked m w isFound
    exact h.alive m was wasFound a (same ▸ mem)
  · exact h.linked
  · exact h.stale
  · intro a m pending isAlive
    refine (h.waiting a m pending isAlive).imp_left ?_
    rintro ⟨w, isFound, mem⟩
    simp only [Pools.setUnlinked, Function.update_apply]
    split
    · rename_i here
      subst here
      obtain rfl := Option.some.inj (found.symm.trans isFound)
      exact ⟨v, rfl, circs ▸ mem⟩
    · exact ⟨w, isFound, mem⟩
  · intro m set a flies
    obtain ⟨pending, born, notLeg⟩ := h.flies m set a flies
    refine ⟨pending, born, fun m w isFound mem => ?_⟩
    obtain ⟨was, wasFound, same⟩ := unlinked m w isFound
    exact notLeg m was wasFound (same ▸ mem)
  · exact h.apart
  · intro m head
    refine (h.top m head).imp_left fun pooled => pooled.imp_right fun isSome => ?_
    simp only [Pools.setUnlinked, Function.update_apply]
    split
    · rfl
    · exact isSome
  · exact h.deep

theorem setCfx_sound (h : Sound d stack) (live : d.cfxs id = some x) (nonce : x'.nonce = x.nonce)
    (legs : x'.legs = x.legs) : Sound (d.setCfx id (some x')) stack := by
  have objects (i : CfxId) (y : Cfx) (isLive : (d.setCfx id (some x')).cfxs i = some y) :
      ∃ z, d.cfxs i = some z ∧ y.nonce = z.nonce ∧ y.legs = z.legs := by
    simp only [Pools.setCfx, Function.update_apply] at isLive
    split at isLive
    · rename_i here
      obtain rfl := Option.some.inj isLive
      exact ⟨x, here ▸ live, nonce, legs⟩
    · exact ⟨y, isLive, rfl, rfl⟩
  constructor
  · exact setCfx_neat h.neat live nonce legs
  · exact setCfx_filed h.filed live nonce
  · exact h.alive
  · intro i y isLive a mem
    obtain ⟨z, wasLive, -, same⟩ := objects i y isLive
    exact h.linked i z wasLive a (same ▸ mem)
  · intro a i y holds isLive last isAlive
    obtain ⟨z, wasLive, sameNonce, same⟩ := objects i y isLive
    rw [sameNonce]
    exact h.stale a i z holds wasLive (same ▸ last) isAlive
  · exact h.waiting
  · exact h.flies
  · exact h.apart
  · exact h.top
  · exact h.deep

theorem deleteEmpty_sound (h : Sound d stack) (found : d.unlinked n = some u) (empty : u.legs = [])
    (notLaunch : ∀ m, stack.head? ≠ some (.launchLeg m)) : Sound (d.deleteSet n u) stack := by
  have unlinked (m : Nonce) (w : Unlinked) (isFound : (d.deleteSet n u).unlinked m = some w) :
      d.unlinked m = some w := by
    rw [deleteSet_unlinked] at isFound
    split at isFound
    · cases isFound
    · exact isFound
  constructor
  · exact deleteSet_neat h.neat found
  · exact deleteSet_filed h.filed
  · intro m w isFound
    rw [deleteSet_circs]
    exact h.alive m w (unlinked m w isFound)
  · intro i y isLive
    rw [deleteSet_circs]
    exact h.linked i y (deleteSet_cfxs isLive)
  · intro a i y holds isLive
    rw [deleteSet_circs] at holds ⊢
    exact h.stale a i y holds (deleteSet_cfxs isLive)
  · intro a m pending isAlive
    rw [deleteSet_circs] at pending isAlive
    refine (h.waiting a m pending isAlive).imp_left ?_
    rintro ⟨w, isFound, mem⟩
    refine ⟨w, ?_, mem⟩
    rw [deleteSet_unlinked, if_neg]
    · exact isFound
    · rintro rfl
      obtain rfl := Option.some.inj (found.symm.trans isFound)
      simp [Unlinked.circs, empty] at mem
  · intro m set a flies
    rw [deleteSet_circs]
    obtain ⟨pending, born, notLeg⟩ := h.flies m set a flies
    refine ⟨pending, ?_, fun m w isFound => notLeg m w (unlinked m w isFound)⟩
    unfold Pools.deleteSet
    split <;> exact born
  · exact h.apart
  · exact fun m head => absurd head (notLaunch m)
  · exact h.deep

theorem finalize_sound (h : Sound d []) (found : d.unlinked n = some u) (live : d.cfxs u.cfx = some x)
    (isLeg : c ∈ u.circs) : Sound (d.finalizeSet u x) [] := by
  obtain ⟨nodup, pending⟩ := h.neat.waits n u found
  obtain ⟨y, isLive, nonce, -⟩ := h.neat.owned.unlinked n u found
  obtain rfl := Option.some.inj (isLive.symm.trans live)
  have mem (a : CircId) : a ∈ (drained u.legs).map (·.circ) ↔ a ∈ u.circs :=
    ((drained_perm u.legs).map (·.circ)).mem_iff
  have marked (a : CircId) : ((d.finalizeSet u y).circs a).marked = (d.circs a).marked := by
    simp only [Pools.finalizeSet]
    split <;> rfl
  have unlinked (m : Nonce) (w : Unlinked) (isFound : (d.finalizeSet u y).unlinked m = some w) :
      m ≠ n ∧ d.unlinked m = some w := by
    simp only [Pools.finalizeSet, Function.update_apply, nonce] at isFound
    split at isFound
    · cases isFound
    · exact ⟨‹_›, isFound⟩
  have objects (i : CfxId) (z : Cfx) (live' : (d.finalizeSet u y).cfxs i = some z) :
      i = u.cfx ∧ z.legs = y.legs ++ (drained u.legs).map (·.circ) ∨ i ≠ u.cfx ∧ d.cfxs i = some z := by
    simp only [Pools.finalizeSet, Function.update_apply] at live'
    split at live'
    · rename_i here
      obtain rfl := Option.some.inj live'
      exact .inl ⟨here, rfl⟩
    · exact .inr ⟨‹_›, live'⟩
  constructor
  · exact finalizeSet_neat h.neat found live isLeg
  · exact finalizeSet_filed h.filed (h.filed.unlinked n u found) live
  · intro m w isFound a isMem
    rw [marked]
    exact h.alive m w (unlinked m w isFound).2 a isMem
  · intro i z live' a isMem
    rw [marked]
    rcases objects i z live' with ⟨rfl, legs⟩ | ⟨-, wasLive⟩
    · rw [legs] at isMem
      rcases List.mem_append.mp isMem with old | new
      · exact h.linked u.cfx y live a old
      · exact h.alive n u found a ((mem a).mp new)
    · exact h.linked i z wasLive a isMem
  · intro a i z holds live' last isAlive
    rw [marked] at isAlive
    exfalso
    rcases objects i z live' with ⟨-, legs⟩ | ⟨other, wasLive⟩
    · have isLast := (mem c).mpr isLeg
      rw [(List.append_eq_nil_iff.mp (legs.symm.trans last)).2] at isLast
      cases isLast
    · have held : (d.circs a).conflux = some i := by
        simp only [Pools.finalizeSet] at holds
        split at holds
        · exact absurd (Option.some.inj holds).symm other
        · exact holds
      simpa using h.stale a i z held wasLive last isAlive
  · intro a m isPending isAlive
    rw [marked] at isAlive
    simp only [Pools.finalizeSet] at isPending
    split at isPending
    · cases isPending
    · rename_i notLeg
      rcases h.waiting a m isPending isAlive with ⟨w, isFound, isMem⟩ | ⟨set, flies⟩
      · refine .inl ⟨w, ?_, isMem⟩
        simp only [Pools.finalizeSet, Function.update_apply, nonce]
        rw [if_neg]
        · exact isFound
        · rintro rfl
          obtain rfl := Option.some.inj (found.symm.trans isFound)
          exact notLeg isMem
      · exact absurd flies not_inFlight_nil
  · exact fun m set a flies => absurd flies not_inFlight_nil
  · exact List.nodup_nil
  · simp
  · simp

theorem Sound.frees (h : Sound d []) (isMarked : (d.circs c).marked = true) (frees : Frees d c d') :
    Neat d' ∧ d.linkedLeg c = none ∧ d'.unlinked = d.unlinked ∧ d'.nonces = d.nonces ∧
      (∀ i y, d'.cfxs i = some y → d.cfxs i = some y) ∧
      ∃ e : Pools, e.circs = d.circs ∧ d'.circs = (e.forget c).circs := by
  have last (i : CfxId) (y : Cfx) (holds : (d.circs c).conflux = some i) (live : d.cfxs i = some y) :
      y.legs = [] := by
    by_contra more
    have alive := h.linked i y live c (h.neat.owned.held c i y holds live more)
    rw [isMarked] at alive
    cases alive
  have notLeg (m : Nonce) (w : Unlinked) (found : d.unlinked m = some w) : c ∉ w.circs := fun mem => by
    have alive := h.alive m w found c mem
    rw [isMarked] at alive
    cases alive
  have none : d.linkedLeg c = none := by
    unfold Pools.linkedLeg
    split
    · rfl
    · rw [Option.bind_eq_none_iff]
      intro x found
      obtain ⟨i, holds, live⟩ := Option.bind_eq_some_iff.mp found
      simp [last i x holds live]
  refine ⟨frees.neat h.neat last notLeg, none, ?_⟩
  cases frees with
  | plain => exact ⟨rfl, rfl, fun _ _ live => live, d, rfl, rfl⟩
  | leg holds live legs _ _ more =>
      have empty := last _ _ holds live
      simp [legs, Pools.cfxDelLeg, empty] at more
  | last =>
      refine ⟨rfl, rfl, fun i y live => ?_, _, rfl, rfl⟩
      simp only [Pools.forget, Pools.modifyCirc, Pools.setCfx, Pools.setLinked,
        Function.update_apply] at live
      split at live
      · cases live
      · exact live
  | pass holds live _ _ _ _ found =>
      have gone := (h.neat.stale holds live (last _ _ holds live)).2
      rw [gone] at found
      cases found

theorem free_sound (h : Sound d []) (isMarked : (d.circs c).marked = true) (frees : Frees d c d') :
    Sound d' [] := by
  obtain ⟨neat, -, unlinked, -, objects, e, same, circs⟩ := h.frees isMarked frees
  have filed := frees.filed h.filed
  have circ (a : CircId) : (d'.circs a).marked = (d.circs a).marked ∧
      (∀ i, (d'.circs a).conflux = some i → (d.circs a).conflux = some i) ∧
      ∀ m, (d'.circs a).pendingNonce = some m → (d.circs a).pendingNonce = some m := by
    rw [circs]
    by_cases here : a = c <;> simp [Pools.forget, Pools.modifyCirc, here, same]
  constructor
  · exact neat
  · exact filed
  · intro m w found a mem
    rw [(circ a).1]
    exact h.alive m w (unlinked ▸ found) a mem
  · intro i y live a mem
    rw [(circ a).1]
    exact h.linked i y (objects i y live) a mem
  · intro a i y holds live empty isAlive
    rw [(circ a).1] at isAlive
    exact h.stale a i y ((circ a).2.1 i holds) (objects i y live) empty isAlive
  · intro a m pending isAlive
    rw [(circ a).1] at isAlive
    rw [unlinked]
    exact h.waiting a m ((circ a).2.2 m pending) isAlive
  · exact fun m set a flies => absurd flies not_inFlight_nil
  · exact List.nodup_nil
  · simp
  · simp

theorem Sound.rebuilt (h : Sound d (.afterClose c n :: rest)) (unlinked : d.linked n = none)
    (holds : (d.circs c).conflux = some id) (live : d.cfxs id = some x)
    (rebuilt : d.rebuild c n id = .ok d') :
    (x.nonce = n ∧ x.legs = [] ∧ d.unlinked n = none) ∧ d' = d.adopt c n id := by
  have nonce := (h.filed.closing c n (.head _) id holds).2 x live
  have last : x.legs = [] := by
    by_contra more
    have linked := h.neat.inPool id x live more
    rw [nonce, unlinked] at linked
    cases linked
  have gone := (h.neat.stale holds live last).2
  rw [nonce] at gone
  exact ⟨⟨nonce, last, gone⟩, rebuild_eq h.neat unlinked gone rebuilt⟩

theorem rebuild_sound (h : Sound d (.afterClose c n :: rest)) (unlinked : d.linked n = none)
    (holds : (d.circs c).conflux = some id) (live : d.cfxs id = some x)
    (rebuilt : d.rebuild c n id = .ok d') : Sound d' (.launchLeg n :: rest) := by
  obtain ⟨⟨nonce, last, gone⟩, same⟩ := h.rebuilt unlinked holds live rebuilt
  have filed := rebuild_filed h.filed holds rebuilt
  subst same
  have circs (a : CircId) : ((d.adopt c n id).circs a).marked = (d.circs a).marked ∧
      ((d.adopt c n id).circs a).pendingNonce = (d.circs a).pendingNonce ∧
      ∀ i, ((d.adopt c n id).circs a).conflux = some i → a ≠ c ∧ (d.circs a).conflux = some i := by
    by_cases here : a = c <;> simp [Pools.adopt, Pools.modifyCirc, here]
  have sets (m : Nonce) (w : Unlinked) (found : (d.adopt c n id).unlinked m = some w) :
      w.circs = [] ∨ d.unlinked m = some w := by
    simp only [Pools.adopt, Function.update_apply] at found
    split at found
    · obtain rfl := Option.some.inj found
      exact .inl rfl
    · exact .inr found
  have flight (m : Nonce) (set : Nat) (a : CircId) : InFlight (.launchLeg n :: rest) m set a ↔
      InFlight (.afterClose c n :: rest) m set a := by simp [InFlight]
  constructor
  · exact adopt_neat h.neat holds live nonce last gone
  · exact filed
  · intro m w found a mem
    rw [(circs a).1]
    rcases sets m w found with empty | was
    · simp [empty] at mem
    · exact h.alive m w was a mem
  · intro i y isLive a mem
    rw [(circs a).1]
    exact h.linked i y isLive a mem
  · intro a i y isHeld isLive empty isAlive
    rw [(circs a).1] at isAlive
    obtain ⟨ne, held⟩ := (circs a).2.2 i isHeld
    have mem := h.stale a i y held isLive empty isAlive
    simpa [ne] using mem
  · intro a m pending isAlive
    rw [(circs a).1] at isAlive
    rw [(circs a).2.1] at pending
    simp only [flight]
    refine (h.waiting a m pending isAlive).imp_left ?_
    rintro ⟨w, found, mem⟩
    refine ⟨w, ?_, mem⟩
    have other : m ≠ n := by
      rintro rfl
      rw [gone] at found
      cases found
    simpa [Pools.adopt, other] using found
  · intro m set a flies
    rw [(circs a).2.1]
    obtain ⟨pending, born, notLeg⟩ := h.flies m set a ((flight m set a).mp flies)
    refine ⟨pending, born, fun m w found mem => ?_⟩
    rcases sets m w found with empty | was
    · simp [empty] at mem
    · exact notLeg m w was mem
  · exact h.apart
  · intro m head
    obtain rfl : n = m := by simpa using head
    exact .inl (.inr (by simp [Pools.adopt]))
  · exact h.deep

theorem getOrCreate_sets (d : Pools) (n m : Nonce) (w : Unlinked)
    (found : (d.unlinkedGetOrCreate n).1.unlinked m = some w) :
    w.circs = [] ∧ d.unlinked n = none ∨ d.unlinked m = some w := by
  unfold Pools.unlinkedGetOrCreate at found
  split at found
  · exact .inr found
  · rename_i gone
    simp only [Function.update_apply] at found
    split at found
    · obtain rfl := Option.some.inj found
      split <;> exact .inl ⟨rfl, gone⟩
    · exact .inr found

theorem getOrCreate_objects (d : Pools) (n : Nonce) (i : CfxId) (y : Cfx)
    (live : (d.unlinkedGetOrCreate n).1.cfxs i = some y) :
    d.cfxs i = some y ∨ i = d.nextCfx ∧ d.linked n = none ∧ d.unlinked n = none ∧
      y = { nonce := n, legs := [], numLegLaunch := 0, inFullTeardown := false } := by
  unfold Pools.unlinkedGetOrCreate at live
  split at live
  · exact .inl live
  · split at live
    · exact .inl live
    · simp only [Function.update_apply] at live
      split at live
      · exact .inr ⟨‹_›, ‹_›, ‹_›, (Option.some.inj live).symm⟩
      · exact .inl live

theorem getOrCreate_sound (h : Sound d (.launchLeg n :: rest)) :
    Sound (d.unlinkedGetOrCreate n).1 (.launchLeg n :: rest) := by
  have known : (d.linked n).isSome ∨ (d.unlinked n).isSome ∨ n ∉ d.nonces := by
    rcases h.top n rfl with (linked | unlinked) | fresh
    · exact .inl linked
    · exact .inr (.inl unlinked)
    · exact .inr (.inr fresh)
  obtain ⟨circs, -, -, global⟩ := getOrCreate_frame d n
  constructor
  · exact getOrCreate_neat h.neat known
  · exact getOrCreate_filed h.filed n
  · intro m w found a mem
    rw [circs]
    rcases getOrCreate_sets d n m w found with ⟨empty, -⟩ | was
    · simp [empty] at mem
    · exact h.alive m w was a mem
  · intro i y live a mem
    rw [circs]
    rcases getOrCreate_objects d n i y live with was | ⟨-, -, -, rfl⟩
    · exact h.linked i y was a mem
    · cases mem
  · intro a i y holds live last isAlive
    rw [circs] at holds isAlive
    rcases getOrCreate_objects d n i y live with was | ⟨rfl, -⟩
    · exact h.stale a i y holds was last isAlive
    · obtain ⟨z, was⟩ := Option.isSome_iff_exists.mp (h.neat.owned.live a _ holds)
      rw [h.neat.owned.fresh _ le_rfl] at was
      cases was
  · intro a m pending isAlive
    rw [circs] at pending isAlive
    refine (h.waiting a m pending isAlive).imp_left ?_
    rintro ⟨w, found, mem⟩
    by_cases here : m = n
    · subst here
      have same : (d.unlinkedGetOrCreate m).1 = d := by simp only [Pools.unlinkedGetOrCreate, found]
      rw [same]
      exact ⟨w, found, mem⟩
    · rw [getOrCreate_unlinked d here]
      exact ⟨w, found, mem⟩
  · intro m set a flies
    rw [circs, global]
    obtain ⟨pending, born, notLeg⟩ := h.flies m set a flies
    refine ⟨pending, born, fun m w found mem => ?_⟩
    rcases getOrCreate_sets d n m w found with ⟨empty, -⟩ | was
    · simp [empty] at mem
    · exact notLeg m w was mem
  · exact h.apart
  · intro m head
    obtain rfl : n = m := by simpa using head
    exact .inl (.inr (by rw [getOrCreate_found]; rfl))
  · exact h.deep

theorem newCircuit_sound {path : Option Path} {frames : List Frame} {set : Nat}
    (h : Sound d (.launchLeg n :: rest)) (live : d.cfxs id = some x) (unborn : c ∉ d.global)
    (carries : frames = [.markForClose c, .addLeg n set c] ∨ frames = [.establish n set c]) :
    Sound (d.newCircuit c n id x path) (frames ++ rest) := by
  have other (a : CircId) (ne : a ≠ c) : (d.newCircuit c n id x path).circs a = d.circs a :=
    Function.update_of_ne ne ..
  have self : (d.newCircuit c n id x path).circs c = { Circ.plain with
      pendingNonce := some n, purpose := .confluxUnlinked, launchedFor := some n, path := path } :=
    Function.update_self ..
  obtain ⟨conflux, pending⟩ := h.neat.created c unborn
  have neat := newCircuit_neat (n := n) h.neat live unborn path
  have flight (m : Nonce) (t : Nat) (a : CircId) : InFlight (frames ++ rest) m t a ↔
      m = n ∧ t = set ∧ a = c ∨ InFlight (.launchLeg n :: rest) m t a := by
    rcases carries with rfl | rfl <;> simp [InFlight] <;> tauto
  have notFlying (m : Nonce) (t : Nat) (a : CircId) (flies : InFlight (.launchLeg n :: rest) m t a) :
      a ≠ c := fun here => unborn (here ▸ (h.flies m t a flies).2.1)
  have counted : Sound (d.setCfx id (some { x with numLegLaunch := x.numLegLaunch + 1 })) (.launchLeg n :: rest) :=
    setCfx_sound h live rfl rfl
  have legs (i : CfxId) (y : Cfx) (isLive : (d.newCircuit c n id x path).cfxs i = some y) (a : CircId)
      (mem : a ∈ y.legs) : a ≠ c := fun here => by
    have holds := (neat.owned.legs i y isLive).2 a mem
    rw [here, self] at holds
    cases holds
  constructor
  · exact neat
  · refine (newCircuit_filed h.filed live).fewer ?_
    rcases carries with rfl | rfl <;> simp
  · intro m w found a mem
    have ne : a ≠ c := by
      rintro rfl
      rw [(h.neat.waits m w found).2 a mem] at pending
      cases pending
    rw [other a ne]
    exact h.alive m w found a mem
  · intro i y isLive a mem
    rw [other a (legs i y isLive a mem)]
    exact counted.linked i y isLive a mem
  · intro a i y holds isLive last isAlive
    by_cases here : a = c
    · rw [here, self] at holds
      cases holds
    · rw [other a here] at holds isAlive
      have mem := counted.stale a i y holds isLive last isAlive
      rcases carries with rfl | rfl <;> simpa using mem
  · intro a m isPending isAlive
    by_cases here : a = c
    · rw [here, self] at isPending
      obtain rfl := Option.some.inj isPending
      exact .inr ⟨set, (flight n set a).mpr (.inl ⟨rfl, rfl, here⟩)⟩
    · rw [other a here] at isPending isAlive
      refine (h.waiting a m isPending isAlive).imp_right ?_
      rintro ⟨t, flies⟩
      exact ⟨t, (flight m t a).mpr (.inr flies)⟩
  · intro m t a flies
    rcases (flight m t a).mp flies with ⟨rfl, rfl, rfl⟩ | old
    · rw [self]
      refine ⟨rfl, List.mem_cons_self, fun k w found mem => ?_⟩
      rw [(h.neat.waits k w found).2 a mem] at pending
      cases pending
    · obtain ⟨isPending, born, notLeg⟩ := h.flies m t a old
      rw [other a (notFlying m t a old)]
      exact ⟨isPending, List.mem_cons_of_mem _ born, notLeg⟩
  · have apart : (flying rest).Nodup := h.apart
    have notMem : c ∉ flying rest := fun mem => by
      obtain ⟨m, t, flies⟩ := mem_flying.mp mem
      exact notFlying m t c (by simpa [InFlight] using flies) rfl
    rcases carries with rfl | rfl <;> exact List.nodup_cons.mpr ⟨notMem, apart⟩
  · intro m head
    rcases carries with rfl | rfl <;> simp at head
  · intro m mem
    apply h.deep m
    rcases carries with rfl | rfl <;> simpa using mem

theorem register_sound (h : Sound d (.addLeg n u.id c :: rest)) (alive : (d.circs c).marked = false)
    (found : d.unlinked n = some u) : Sound (d.register c n u) rest := by
  obtain ⟨pending, born, notLeg⟩ := h.flies n u.id c (.inr (.head _))
  obtain ⟨nodup, waits⟩ := h.neat.waits n u found
  have circs : Unlinked.circs { u with legs := u.legs ++ [{ circ := c, linked := false }] } =
      u.circs ++ [c] := by simp [Unlinked.circs]
  have apart : c ∉ flying rest ∧ (flying rest).Nodup := List.nodup_cons.mp h.apart
  have sets (m : Nonce) (w : Unlinked) (isFound : (d.register c n u).unlinked m = some w) (a : CircId)
      (mem : a ∈ w.circs) : a = c ∧ m = n ∨ ∃ v, d.unlinked m = some v ∧ a ∈ v.circs := by
    simp only [Pools.register, Pools.setUnlinked, Function.update_apply] at isFound
    split at isFound
    · rename_i here
      obtain rfl := Option.some.inj isFound
      rw [circs] at mem
      rcases List.mem_append.mp mem with old | new
      · exact .inr ⟨u, here ▸ found, old⟩
      · exact .inl ⟨List.mem_singleton.mp new, here⟩
    · exact .inr ⟨w, isFound, mem⟩
  have flight (m : Nonce) (t : Nat) (a : CircId) (flies : InFlight rest m t a) :
      a ≠ c ∧ InFlight (.addLeg n u.id c :: rest) m t a := by
    refine ⟨?_, flies.imp (.tail _) (.tail _)⟩
    rintro rfl
    exact apart.1 (mem_flying.mpr ⟨m, t, flies⟩)
  constructor
  · refine setUnlinked_neat h.neat found _ rfl rfl ?_
    rw [circs]
    refine ⟨List.nodup_append.mpr ⟨nodup, by simp, ?_⟩, fun a mem => ?_⟩
    · intro a mem b isNew same
      obtain rfl := List.mem_singleton.mp isNew
      exact notLeg n u found (same ▸ mem)
    · rcases List.mem_append.mp mem with old | new
      · exact waits a old
      · obtain rfl := List.mem_singleton.mp new
        exact pending
  · exact Filed.fewer (setUnlinked_filed h.filed found (by rfl)) (by simp +contextual)
  · intro m w isFound a mem
    rcases sets m w isFound a mem with ⟨rfl, -⟩ | ⟨v, was, isLeg⟩
    · exact alive
    · exact h.alive m v was a isLeg
  · exact h.linked
  · intro a i y holds live last isAlive
    simpa using h.stale a i y holds live last isAlive
  · intro a m isPending isAlive
    have waiting := h.waiting a m isPending isAlive
    by_cases here : a = c
    · subst here
      obtain rfl := Option.some.inj (pending.symm.trans isPending)
      refine .inl ⟨_, Function.update_self .., ?_⟩
      rw [circs]
      exact List.mem_append_right _ (List.mem_singleton.mpr rfl)
    · rcases waiting with ⟨w, isFound, isLeg⟩ | ⟨t, flies⟩
      · left
        simp only [Pools.register, Pools.setUnlinked, Function.update_apply]
        split
        · rename_i isHere
          subst isHere
          obtain rfl := Option.some.inj (found.symm.trans isFound)
          refine ⟨_, rfl, ?_⟩
          rw [circs]
          exact List.mem_append_left _ isLeg
        · exact ⟨w, isFound, isLeg⟩
      · exact .inr ⟨t, by simpa [InFlight, here] using flies⟩
  · intro m t a flies
    obtain ⟨ne, old⟩ := flight m t a flies
    obtain ⟨isPending, isBorn, isNot⟩ := h.flies m t a old
    refine ⟨isPending, isBorn, fun k w isFound mem => ?_⟩
    rcases sets k w isFound a mem with ⟨here, -⟩ | ⟨v, was, isLeg⟩
    · exact ne here
    · exact isNot k v was isLeg
  · exact apart.2
  · intro m head
    exact absurd (List.mem_of_mem_head? head) (h.deep m)
  · exact fun m mem => h.deep m (List.mem_of_mem_tail mem)

theorem isOpen_alive (isOpen : d.isOpen c = true) : (d.circs c).marked = false := by
  simp only [Pools.isOpen, Bool.and_eq_true, Bool.not_eq_true', decide_eq_true_eq] at isOpen
  exact isOpen.1.2

theorem Sound.pooled (h : Sound d []) (isOpen : d.isOpen c = true) (nonce : d.getNonce c = some n) :
    d.Pooled n := by
  have alive := isOpen_alive isOpen
  unfold Pools.getNonce at nonce
  split at nonce
  · rename_i id holds
    obtain ⟨x, live, rfl⟩ := Option.map_eq_some_iff.mp nonce
    by_cases last : x.legs = []
    · exact absurd (h.stale c id x holds live last alive) (by simp)
    · exact .inl (by rw [h.neat.inPool id x live last]; rfl)
  · rcases h.waiting c n nonce alive with ⟨u, found, -⟩ | ⟨set, flies⟩
    · exact .inr (by rw [found]; rfl)
    · exact absurd flies not_inFlight_nil

theorem Sound.pop {frame : Frame} (h : Sound d (frame :: rest)) (plain : frame.circuit = none)
    (notClosing : ∀ c n, frame ≠ .afterClose c n) : Sound d rest := by
  refine Sound.swap [frame] [] rest h (by simpa using plain) (by simp)
    (fun c n mem => notClosing c n (List.mem_singleton.mp mem).symm) (by simp) (fun n head => ?_)
    fun n mem => ?_
  · exact absurd (List.mem_of_mem_head? head) (h.deep n)
  · exact h.deep n (List.mem_of_mem_tail mem)

theorem Sound.push (h : Sound d rest) (new : List Frame)
    (closing : ∀ f ∈ new, (∃ c, f = .markForClose c) ∨ (∃ n, f = .markAllForClose n) ∨
      ∃ n, f = .markLinkedForClose n) (notLaunch : ∀ n, .launchLeg n ∉ rest) : Sound d (new ++ rest) := by
  have plain (f : Frame) (mem : f ∈ new) : f.circuit = none ∧ (∀ c n, f ≠ .afterClose c n) ∧
      ∀ n, f ≠ .launchLeg n := by
    rcases closing f mem with ⟨c, rfl⟩ | ⟨n, rfl⟩ | ⟨n, rfl⟩ <;> simp [Frame.circuit]
  have none (n : Nonce) : .launchLeg n ∉ new ++ rest := fun mem => by
    rcases List.mem_append.mp mem with isNew | old
    · exact (plain _ isNew).2.2 n rfl
    · exact notLaunch n old
  refine Sound.swap [] new rest h (by simp) (fun f mem => (plain f mem).1) (by simp)
    (fun c n mem => (plain _ mem).2.1 c n rfl) (fun n head => ?_) fun n mem => ?_
  · exact absurd (List.mem_of_mem_head? head) (none n)
  · exact none n (List.mem_of_mem_tail mem)

theorem Sound.launch (h : Sound d []) (known : d.Pooled n ∨ n ∉ d.nonces) : Sound d [.launchLeg n] := by
  refine Sound.swap [] [.launchLeg n] [] h (by simp) ?_ (by simp) (by simp) ?_ (by simp)
  · intro f mem
    obtain rfl := List.mem_singleton.mp mem
    rfl
  · intro m head
    obtain rfl : n = m := by simpa using head
    exact known

theorem Sound.hand {set : Nat} {new : List Frame} (h : Sound d (.establish n set c :: rest))
    (carries : new = [.markForClose c, .addLeg n set c] ∨ new = [.addLeg n set c]) :
    Sound d (new ++ rest) := by
  have flight (m : Nonce) (t : Nat) (a : CircId) :
      InFlight (new ++ rest) m t a ↔ InFlight (.establish n set c :: rest) m t a := by
    rcases carries with rfl | rfl <;> simp [InFlight] <;> tauto
  have fly : flying (new ++ rest) = flying (.establish n set c :: rest) := by
    rcases carries with rfl | rfl <;> rfl
  refine h.restack (fun a m mem => ?_) (fun a i y _ _ _ _ mem => ?_) (fun m t a => (flight m t a).mp)
    (fun m t a _ _ => (flight m t a).mpr) (fly ▸ h.apart) (fun m head => ?_) fun m mem => ?_
  · rcases carries with rfl | rfl <;> simpa using mem
  · rcases carries with rfl | rfl <;> simpa using mem
  · rcases carries with rfl | rfl <;> simp at head
  · apply h.deep m
    rcases carries with rfl | rfl <;> simpa using mem

theorem Sound.settle (h : Sound d (.afterClose c n :: rest))
    (kept : (d.circs c).marked = true ∨ (d.circs c).conflux = none) : Sound d rest := by
  refine h.restack (fun a m mem => .tail _ mem) (fun a i y holds _ _ isAlive mem => ?_)
    (fun m t a flies => flies.imp (.tail _) (.tail _)) (fun m t a _ _ flies => by simpa [InFlight] using flies)
    h.apart (fun m head => ?_) fun m mem => h.deep m (List.mem_of_mem_tail mem)
  · have ne : a ≠ c := by
      rintro rfl
      rcases kept with marked | none
      · rw [marked] at isAlive
        cases isAlive
      · rw [none] at holds
        cases holds
    simpa [ne] using mem
  · exact absurd (List.mem_of_mem_head? head) (h.deep m)

theorem Sound.refill (h : Sound d (.afterClose c n :: rest)) (linked : (d.linked n).isSome) :
    Sound d (.launchLeg n :: rest) := by
  refine h.restack (fun a m mem => .tail _ ?_) (fun a i y holds live last _ mem => .tail _ ?_)
    (fun m t a flies => ?_) (fun m t a _ _ flies => ?_) h.apart (fun m head => ?_) h.deep
  · exact List.mem_of_ne_of_mem (by simp) mem
  · refine List.mem_of_ne_of_mem ?_ mem
    rintro eq
    obtain ⟨rfl, rfl⟩ := Frame.afterClose.inj eq
    rw [(h.neat.stale holds live last).1] at linked
    cases linked
  · simpa [InFlight] using flies
  · simpa [InFlight] using flies
  · obtain rfl : n = m := by simpa using head
    exact .inl (.inl linked)

theorem Sound.forget {set : Nat} (h : Sound d (.addLeg n set c :: rest))
    (closed : (d.circs c).marked = true ∨ (d.circs c).pendingNonce = none) : Sound d rest := by
  refine h.restack (fun a m mem => .tail _ mem) (fun a i y _ _ _ _ mem => by simpa using mem)
    (fun m t a flies => flies.imp (.tail _) (.tail _)) (fun m t a pending isAlive flies => ?_)
    (List.nodup_cons.mp h.apart).2 (fun m head => ?_) fun m mem => h.deep m (List.mem_of_mem_tail mem)
  · have ne : a ≠ c := by
      rintro rfl
      rcases closed with marked | none
      · rw [marked] at isAlive
        cases isAlive
      · rw [none] at pending
        cases pending
    simpa [InFlight, ne] using flies
  · exact absurd (List.mem_of_mem_head? head) (h.deep m)

theorem Move.sound {s : State} {e : Event} (move : Move p s.pools s.stack e d' stack')
    (h : Sound s.pools s.stack) (ok : detaches s = true) : Sound d' stack' := by
  obtain ⟨d, stack, phase, fault⟩ := s
  dsimp only at move h
  cases move with
  | launchSet fresh => exact h.launch (.inr fresh)
  | add isOpen nonce => exact h.launch (.inl (h.pooled isOpen nonce))
  | close => exact h.push [_] (by simp) (by simp)
  | closeSet => exact h.push [_] (by simp) (by simp)
  | repurpose isOpen closes => exact repurpose_sound h (isOpen_alive isOpen) closes
  | @answer c _ _ n u _ pending found next =>
      have answered := setUnlinked_sound h found (u.answer c) rfl rfl (answer_circs u c)
      rcases next with rfl | rfl
      · exact answered
      · exact answered.push [_] (by simp) (by simp)
  | @finalize c _ _ n u x pending found isLeg live =>
      have answered := setUnlinked_sound h found (u.answer c) rfl rfl (answer_circs u c)
      have nonce := (h.filed.unlinked n u found).2 x live
      have final := finalize_sound (c := c) answered (Function.update_self ..) live
        (by rwa [answer_circs])
      have same : (d.setUnlinked n (some (u.answer c))).finalizeSet (u.answer c) x =
          d.finalizeSet (u.answer c) x := by
        simp only [Pools.finalizeSet, Pools.setUnlinked, nonce, Function.update_idem]
        rfl
      rwa [same] at final
  | free marked frees => exact free_sound h marked frees
  | flags pressure shuttingDown => exact flags_sound h pressure shuttingDown
  | skip => exact h.pop rfl (by simp)
  | mark alive closes => exact mark_sound h closes
  | @markAll n _ rest =>
      have popped := h.pop rfl (by simp)
      have last : Sound d' (.markLinkedForClose n :: rest) := popped.push [_] (by simp) h.deep
      refine last.push _ (fun f mem => ?_) fun m mem => ?_
      · obtain ⟨c, -, rfl⟩ := List.mem_map.mp mem
        exact .inl ⟨c, rfl⟩
      · exact h.deep m (List.mem_of_ne_of_mem (by simp) mem)
  | @deleteEmpty n _ rest u x found live empty =>
      rw [(h.filed.unlinked n u found).2 x live]
      have deleted := deleteEmpty_sound h found empty (by simp)
      exact (deleted.pop rfl (by simp)).push [_] (by simp) h.deep
  | spare => exact h.pop rfl (by simp)
  | @teardown n _ rest id x linked live =>
      have torn : Sound (d.setCfx id (some { x with inFullTeardown := true })) (.markLinkedForClose n :: rest) :=
        setCfx_sound h live (by rfl) (by rfl)
      exact (torn.pop rfl (by simp)).push _ (by simp) h.deep
  | @settle c n _ _ kept =>
      apply h.settle
      simpa [detaches, kept] using ok
  | refill linked => exact h.refill linked
  | rebuild unlinked holds live rebuilt => exact rebuild_sound h unlinked holds live rebuilt
  | refuse _ created =>
      have made := getOrCreate_sound h
      rw [created] at made
      exact made.pop rfl (by simp)
  | @launch n _ _ _ _ _ _ _ _ unborn created live allowed lookup next =>
      have made := getOrCreate_sound h
      have global := (getOrCreate_frame d n).2.2.2
      rw [created] at made global
      apply newCircuit_sound made live (by rwa [global])
      rcases next with ⟨-, carries⟩ | ⟨_, -, -, carries⟩
      · exact .inl carries
      · exact .inr carries
  | oom =>
      have flagged := flags_sound h true d.shuttingDown
      refine flagged.push [_] (by simp) fun n mem => ?_
      exact h.deep n (List.mem_of_ne_of_mem (by simp) mem)
  | buildFails => exact h.hand (.inl rfl)
  | built => exact h.hand (.inr rfl)
  | forget closed => exact h.forget closed
  | register alive found => exact register_sound h alive found
  | setPurpose => exact (modifyCirc_sound h rfl rfl rfl).pop rfl (by simp)

theorem initial_sound : Sound (State.initial .client).pools [] := by
  refine ⟨⟨⟨?_, ?_, ?_, ?_, ?_, ?_, ?_, ?_⟩, ?_, ?_, ?_, ?_, ?_, ?_⟩, ⟨?_, ?_, ?_, ?_⟩, ?_, ?_, ?_, ?_, ?_,
    List.nodup_nil, ?_, ?_⟩ <;> simp [State.initial, Circ.plain, InFlight]

end Sound
end TorJet.Pool
