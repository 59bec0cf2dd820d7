import TorJet.Pool.Step

/-!
# Unlinked sets without legs

A set is created before its first leg is launched, and it is removed when closing a circuit leaves it
without legs. In between, an empty set has a launch under way.
-/

namespace TorJet.Pool
open Smartlist Base

def Pools.Of (d : Pools) (n : Nonce) (id : CfxId) : Prop :=
  id < d.nextCfx ∧ ∀ x, d.cfxs id = some x → x.nonce = n

structure Filed (d : Pools) (stack : List Frame) : Prop where
  unlinked : ∀ n u, d.unlinked n = some u → d.Of n u.cfx
  linked : ∀ n id, d.linked n = some id → d.Of n id
  held : ∀ c id, (d.circs c).conflux = some id → id < d.nextCfx
  closing : ∀ c n, .afterClose c n ∈ stack → ∀ id, (d.circs c).conflux = some id → d.Of n id

def Older (d d' : Pools) : Prop :=
  d.nextCfx ≤ d'.nextCfx ∧ ∀ id x', id < d.nextCfx → d'.cfxs id = some x' →
    ∃ x, d.cfxs id = some x ∧ x.nonce = x'.nonce

section Older
variable {d d' : Pools} {c : CircId} {n : Nonce} {id : CfxId} {u : Unlinked} {x x' : Cfx}

theorem Older.of_eq (objects : d'.cfxs = d.cfxs) (next : d'.nextCfx = d.nextCfx) : Older d d' := by
  refine ⟨next.ge, fun i y _ live => ⟨y, ?_, rfl⟩⟩
  rwa [objects] at live

theorem Older.setCfx (live : d.cfxs id = some x) (objects : d'.cfxs = Function.update d.cfxs id (some x'))
    (nonce : x'.nonce = x.nonce) (next : d'.nextCfx = d.nextCfx) : Older d d' := by
  refine ⟨next.ge, fun i y _ isLive => ?_⟩
  rw [objects, Function.update_apply] at isLive
  split at isLive
  · rename_i here
    obtain rfl := Option.some.inj isLive
    exact ⟨x, by rw [here, live], nonce.symm⟩
  · exact ⟨y, isLive, rfl⟩

theorem Older.freeCfx (objects : d'.cfxs = Function.update d.cfxs id none)
    (next : d'.nextCfx = d.nextCfx) : Older d d' := by
  refine ⟨next.ge, fun i y _ isLive => ?_⟩
  rw [objects, Function.update_apply] at isLive
  split at isLive
  · cases isLive
  · exact ⟨y, isLive, rfl⟩

theorem Older.trans {e : Pools} (first : Older d e) (second : Older e d') : Older d d' := by
  refine ⟨first.1.trans second.1, fun i y old live => ?_⟩
  obtain ⟨z, isLive, same⟩ := second.2 i y (old.trans_le first.1) live
  obtain ⟨w, wasLive, same'⟩ := first.2 i z old isLive
  exact ⟨w, wasLive, same'.trans same⟩

theorem Older.of (older : Older d d') (of : d.Of n id) : d'.Of n id := by
  refine ⟨of.1.trans_le older.1, fun y live => ?_⟩
  obtain ⟨z, wasLive, same⟩ := older.2 id y of.1 live
  rw [← same]
  exact of.2 z wasLive

theorem deleteSet_older : Older d (d.deleteSet n u) := by
  unfold Pools.deleteSet
  split
  · exact .of_eq rfl rfl
  · exact .freeCfx rfl rfl

theorem clearPending_older : Older d (d.clearPending c u) := by
  unfold Pools.clearPending
  split <;> exact .of_eq rfl rfl

theorem getOrCreate_older : Older d (d.unlinkedGetOrCreate n).1 := by
  unfold Pools.unlinkedGetOrCreate
  split
  · exact .of_eq rfl rfl
  · split
    · exact ⟨Nat.le_succ _, fun i y _ live => ⟨y, live, rfl⟩⟩
    · refine ⟨Nat.le_succ _, fun i y old live => ⟨y, ?_, rfl⟩⟩
      have other : i ≠ d.nextCfx := Nat.ne_of_lt old
      simpa [Function.update_apply, other] using live

theorem Closes.older {full : Bool} {frames : List Frame} (closes : Closes d c full d' frames) :
    Older d d' := by
  cases closes with
  | nothing => exact .of_eq rfl rfl
  | dropLeg => exact clearPending_older.trans (.of_eq rfl rfl)
  | dropSet => exact clearPending_older.trans deleteSet_older
  | detach _ _ live => exact .setCfx live rfl (cfxDelLeg_nonce ..) rfl
  | handOver _ _ live => exact .setCfx live rfl (cfxDelLeg_nonce ..) rfl
  | keep _ _ live => exact .setCfx live rfl (cfxDelLeg_nonce ..) rfl

end Older

section Filed
variable {p : Params} {d d' : Pools} {stack stack' : List Frame} {e : Event}

theorem Filed.fewer (h : Filed d stack)
    (of : ∀ a m, .afterClose a m ∈ stack' → .afterClose a m ∈ stack) : Filed d stack' where
  unlinked := h.unlinked
  linked := h.linked
  held := h.held
  closing c n mem := h.closing c n (of c n mem)

theorem Filed.mono (h : Filed d stack) (older : Older d d')
    (unlinked : ∀ n v, d'.unlinked n = some v →
      d'.Of n v.cfx ∨ ∃ u, d.unlinked n = some u ∧ u.cfx = v.cfx)
    (linked : ∀ n id, d'.linked n = some id → d.linked n = some id)
    (held : ∀ c id, (d'.circs c).conflux = some id → (d.circs c).conflux = some id)
    (closing : ∀ c n, .afterClose c n ∈ stack' → .afterClose c n ∈ stack ∨
      ∀ id, (d.circs c).conflux = some id → d.Of n id) : Filed d' stack' where
  unlinked n v found := by
    rcases unlinked n v found with of | ⟨u, was, same⟩
    · exact of
    · rw [← same]
      exact older.of (h.unlinked n u was)
  linked n id found := older.of (h.linked n id (linked n id found))
  held c id holds := (h.held c id (held c id holds)).trans_le older.1
  closing c n mem id holds := by
    rcases closing c n mem with before | of
    · exact older.of (h.closing c n before id (held c id holds))
    · exact older.of (of id (held c id holds))

theorem Closes.unlinked {c : CircId} {full : Bool} {frames : List Frame}
    (closes : Closes d c full d' frames) (h : Filed d stack) (m : Nonce) (v : Unlinked)
    (found : d'.unlinked m = some v) : ∃ u, d.unlinked m = some u ∧ u.cfx = v.cfx ∧ u.id = v.id ∧
      (v.legs = [] → u.legs = [] ∧ (d.circs c).pendingNonce ≠ some m) := by
  cases closes with
  | nothing idle gone =>
      refine ⟨v, found, rfl, rfl, fun empty => ⟨empty, fun pending => ?_⟩⟩
      rw [gone m pending] at found
      cases found
  | @dropLeg n u pending was more =>
      simp only [Pools.dropLeg, Pools.setUnlinked, clearPending_unlinked, Function.update_apply] at found
      split at found
      · rename_i here
        obtain rfl := Option.some.inj found
        exact ⟨u, here ▸ was, rfl, rfl, fun empty => absurd empty more⟩
      · rename_i other
        refine ⟨v, found, rfl, rfl, fun empty => ⟨empty, fun same => other ?_⟩⟩
        exact Option.some.inj (same.symm.trans pending)
  | @dropSet n u x pending was live last =>
      rw [deleteSet_unlinked, clearPending_unlinked, (h.unlinked n u was).2 x live] at found
      split at found
      · cases found
      · rename_i other
        refine ⟨v, found, rfl, rfl, fun empty => ⟨empty, fun same => other ?_⟩⟩
        exact Option.some.inj (same.symm.trans pending)
  | detach pending =>
      exact ⟨v, found, rfl, rfl, fun empty => ⟨empty, by simp [pending]⟩⟩
  | @handOver id x u _ pending holds live last was shares =>
      simp only [Pools.handOver, Pools.setUnlinked, Pools.modifyCirc, cfxDelLeg_nonce,
        Function.update_apply] at found
      split at found
      · rename_i here
        obtain rfl := Option.some.inj found
        exact ⟨u, here ▸ was, rfl, rfl, fun empty => ⟨empty, by simp [pending]⟩⟩
      · exact ⟨v, found, rfl, rfl, fun empty => ⟨empty, by simp [pending]⟩⟩
  | keep pending =>
      exact ⟨v, found, rfl, rfl, fun empty => ⟨empty, by simp [pending]⟩⟩

theorem Closes.linked {c : CircId} {full : Bool} {frames : List Frame}
    (closes : Closes d c full d' frames) (m : Nonce) (id : CfxId) (found : d'.linked m = some id) :
    d.linked m = some id := by
  cases closes with
  | nothing => exact found
  | dropLeg => simpa [Pools.dropLeg, Pools.setUnlinked] using found
  | dropSet => simpa using found
  | detach => exact found
  | handOver | keep =>
      simp only [Pools.handOver, Pools.keep, Pools.setLinked, Pools.setUnlinked, Pools.modifyCirc,
        Pools.setCfx, Function.update_apply] at found
      split at found
      · cases found
      · exact found

theorem Closes.filed {c : CircId} {full : Bool} {frames rest : List Frame}
    (closes : Closes d c full d' frames) (h : Filed d stack)
    (of : ∀ a m, .afterClose a m ∈ rest → .afterClose a m ∈ stack) :
    Filed d' (frames ++ rest) := by
  refine h.mono closes.older (fun m v found => ?_) closes.linked (fun a => (closes.circs a).2.1)
    fun a n mem => ?_
  · obtain ⟨u, was, same, -⟩ := closes.unlinked h m v found
    exact .inr ⟨u, was, same⟩
  · rcases List.mem_append.mp mem with new | old
    · rcases closes.leaves with none | ⟨m, u, launch, -⟩ | ⟨id, x, holds, live, next⟩
      · simp [none] at new
      · simp [launch] at new
      · have same : a = c ∧ n = x.nonce := by
          rcases next with rfl | rfl <;> simpa using new
        refine .inr fun i isHeld => ?_
        rw [same.1, holds] at isHeld
        obtain rfl := Option.some.inj isHeld
        rw [same.2]
        refine ⟨h.held c id holds, fun y isLive => ?_⟩
        rw [Option.some.inj (isLive.symm.trans live)]
    · exact .inl (of a n old)

theorem getOrCreate_of (h : Filed d stack) (n : Nonce) :
    (d.unlinkedGetOrCreate n).1.Of n (d.unlinkedGetOrCreate n).2.cfx := by
  cases found : d.unlinked n with
  | some u =>
      have of := h.unlinked n u found
      simpa only [Pools.unlinkedGetOrCreate, found] using of
  | none =>
      cases linked : d.linked n with
      | some id =>
          have of := h.linked n id linked
          simp only [Pools.unlinkedGetOrCreate, found, linked]
          exact ⟨Nat.lt_succ_of_lt of.1, of.2⟩
      | none =>
          simp only [Pools.unlinkedGetOrCreate, found, linked]
          refine ⟨Nat.lt_succ_self _, fun x live => ?_⟩
          simp only [Function.update_self, Option.some.injEq] at live
          rw [← live]

theorem getOrCreate_filed (h : Filed d stack) (n : Nonce) :
    Filed (d.unlinkedGetOrCreate n).1 stack := by
  obtain ⟨circs, linked, -⟩ := getOrCreate_frame d n
  refine h.mono getOrCreate_older (fun m v found => ?_) (by simp [linked]) (by simp [circs])
    fun c m mem => .inl mem
  by_cases here : m = n
  · subst here
    rw [getOrCreate_found] at found
    obtain rfl := Option.some.inj found
    exact .inl (getOrCreate_of h m)
  · rw [getOrCreate_unlinked d here] at found
    exact .inr ⟨v, found, rfl⟩

theorem modifyCirc_filed {c : CircId} {f : Circ → Circ} (h : Filed d stack)
    (kept : ∀ id, (f (d.circs c)).conflux = some id → (d.circs c).conflux = some id) :
    Filed (d.modifyCirc c f) stack := by
  refine h.mono (.of_eq rfl rfl) (fun m v found => .inr ⟨v, found, rfl⟩) (fun _ _ found => found)
    (fun a id holds => ?_) fun a n mem => .inl mem
  simp only [Pools.modifyCirc, Function.update_apply] at holds
  split at holds
  · rename_i here
    rw [here]
    exact kept id holds
  · exact holds

theorem rebuild_filed {c : CircId} {n : Nonce} {id : CfxId} {rest : List Frame}
    (h : Filed d (.afterClose c n :: rest)) (holds : (d.circs c).conflux = some id)
    (rebuilt : d.rebuild c n id = .ok d') : Filed d' (.launchLeg n :: rest) := by
  suffices Filed d' (.afterClose c n :: rest) by
    refine this.fewer fun a m mem => ?_
    simp only [List.mem_cons, reduceCtorEq, false_or] at mem
    exact List.mem_cons_of_mem _ mem
  have of := h.closing c n (.head _) id holds
  rcases rebuild_inv rebuilt with ⟨u, found, legs, rfl⟩ | ⟨d₁, u, created, empty, rfl⟩
  · exact modifyCirc_filed h (by simp)
  · have filed : Filed d₁ (.afterClose c n :: rest) := by
      have := getOrCreate_filed h n
      rwa [created] at this
    have ofNew : d₁.Of n id := by
      have older : Older d (d.unlinkedGetOrCreate n).1 := getOrCreate_older
      rw [created] at older
      exact older.of of
    have older : Older d₁ (((d₁.setUnlinked n (some { u with cfx := id, isForLinkedSet := false })).setCfx
        u.cfx none).modifyCirc c fun y => { y with conflux := none }) := .freeCfx rfl rfl
    refine filed.mono older (fun m v found => ?_) (fun _ _ found => found) (fun a i holds => ?_)
      fun a m mem => .inl mem
    · simp only [Pools.modifyCirc, Pools.setCfx, Pools.setUnlinked, Function.update_apply] at found
      split at found
      · rename_i here
        obtain rfl := Option.some.inj found
        rw [here]
        exact .inl (older.of ofNew)
      · exact .inr ⟨v, found, rfl⟩
    · simp only [Pools.modifyCirc, Function.update_apply] at holds
      split at holds
      · cases holds
      · exact holds

theorem setUnlinked_filed {n : Nonce} {u v : Unlinked} (h : Filed d stack)
    (found : d.unlinked n = some u) (same : v.cfx = u.cfx) : Filed (d.setUnlinked n (some v)) stack := by
  refine h.mono (.of_eq rfl rfl) (fun m w isFound => ?_) (fun _ _ found => found)
    (fun _ _ holds => holds) fun a m mem => .inl mem
  simp only [Pools.setUnlinked, Function.update_apply] at isFound
  split at isFound
  · rename_i here
    obtain rfl := Option.some.inj isFound
    exact .inr ⟨u, here ▸ found, same.symm⟩
  · exact .inr ⟨w, isFound, rfl⟩

theorem deleteSet_filed {n : Nonce} {u : Unlinked} (h : Filed d stack) :
    Filed (d.deleteSet n u) stack := by
  refine h.mono deleteSet_older (fun m w found => ?_) (by simp) (by simp) fun a m mem => .inl mem
  rw [deleteSet_unlinked] at found
  split at found
  · cases found
  · exact .inr ⟨w, found, rfl⟩

theorem setCfx_filed {id : CfxId} {x x' : Cfx} (h : Filed d stack) (live : d.cfxs id = some x)
    (nonce : x'.nonce = x.nonce) : Filed (d.setCfx id (some x')) stack :=
  h.mono (.setCfx live rfl nonce rfl) (fun _ w found => .inr ⟨w, found, rfl⟩) (fun _ _ found => found)
    (fun _ _ holds => holds) fun _ _ mem => .inl mem

theorem finalizeSet_filed {n : Nonce} {u : Unlinked} {x : Cfx} (h : Filed d []) (of : d.Of n u.cfx)
    (live : d.cfxs u.cfx = some x) : Filed (d.finalizeSet u x) [] := by
  have older : Older d (d.finalizeSet u x) := .setCfx live rfl rfl rfl
  refine ⟨fun m w found => ?_, fun m id found => ?_, fun a id holds => ?_, by simp⟩
  · simp only [Pools.finalizeSet, Function.update_apply] at found
    split at found
    · cases found
    · exact older.of (h.unlinked m w found)
  · simp only [Pools.finalizeSet, Function.update_apply] at found
    split at found
    · rename_i here
      obtain rfl := Option.some.inj found
      rw [here, of.2 x live]
      exact older.of of
    · exact older.of (h.linked m id found)
  · refine lt_of_lt_of_le ?_ older.1
    simp only [Pools.finalizeSet] at holds
    split at holds
    · rw [← Option.some.inj holds]
      exact of.1
    · exact h.held a id holds

theorem Frees.filed {c : CircId} (frees : Frees d c d') (h : Filed d stack) : Filed d' stack := by
  cases frees with
  | plain => exact modifyCirc_filed h (by simp)
  | leg _ live _ _ nonce => exact modifyCirc_filed (setCfx_filed h live nonce) (by simp)
  | @last id x =>
      have freed : Filed ((d.setCfx id none).setLinked x.nonce none) stack := by
        refine h.mono (.freeCfx rfl rfl) (fun m w found => .inr ⟨w, found, rfl⟩) (fun m i found => ?_)
          (fun _ _ holds => holds) fun a m mem => .inl mem
        simp only [Pools.setLinked, Function.update_apply] at found
        split at found
        · cases found
        · exact found
      exact modifyCirc_filed freed (by simp)
  | @pass id x x' u _ _ live _ _ nonce _ found =>
      have passed : Filed ((d.setCfx id (some x')).setLinked x.nonce none) stack := by
        refine h.mono (.setCfx live rfl nonce rfl) (fun m w found => .inr ⟨w, found, rfl⟩)
          (fun m i found => ?_) (fun _ _ holds => holds) fun a m mem => .inl mem
        simp only [Pools.setLinked, Function.update_apply] at found
        split at found
        · cases found
        · exact found
      refine modifyCirc_filed (setUnlinked_filed passed (u := u) ?_ rfl) (by simp)
      exact found

theorem newCircuit_filed {c : CircId} {n : Nonce} {id : CfxId} {x : Cfx} {path : Option Path}
    (h : Filed d stack) (live : d.cfxs id = some x) : Filed (d.newCircuit c n id x path) stack :=
  h.mono (.setCfx live rfl rfl rfl) (fun m w found => .inr ⟨w, found, rfl⟩) (fun _ _ found => found)
    (fun a i holds => by
      simp only [Pools.newCircuit, Function.update_apply] at holds
      split at holds
      · cases holds
      · exact holds) fun a m mem => .inl mem

theorem Move.filed (move : Move p d stack e d' stack') (h : Filed d stack) : Filed d' stack' := by
  cases move with
  | launchSet | add | close | closeSet | skip | markAll | spare | settle | refill | buildFails |
    built | forget => exact h.fewer (by simp +contextual)
  | repurpose isOpen closes => exact closes.filed h (by simp)
  | answer pending found next =>
      refine Filed.fewer (setUnlinked_filed h found (by rfl)) ?_
      rcases next with rfl | rfl <;> simp
  | @finalize c _ _ n u x pending found isLeg live => exact finalizeSet_filed h (h.unlinked n u found) live
  | free _ frees => exact frees.filed h
  | flags =>
      exact h.mono (.of_eq rfl rfl) (fun m w found => .inr ⟨w, found, rfl⟩) (fun _ _ found => found)
        (fun _ _ holds => holds) fun a m mem => .inl mem
  | mark alive closes => exact closes.filed (modifyCirc_filed h (by simp)) (by simp)
  | deleteEmpty => exact (deleteSet_filed h).fewer (by simp)
  | teardown linked live =>
      refine Filed.fewer (setCfx_filed h live (by rfl)) ?_
      simp
  | rebuild unlinked holds live rebuilt => exact rebuild_filed h holds rebuilt
  | @refuse n c path _ _ u x _ created =>
      have filed := getOrCreate_filed h n
      rw [created] at filed
      exact filed.fewer (by simp)
  | @launch n c path _ _ d₁ u x _ _ created live _ _ next =>
      have filed := getOrCreate_filed h n
      rw [created] at filed
      refine (newCircuit_filed filed live).fewer ?_
      rcases next with ⟨-, rfl⟩ | ⟨_, -, -, rfl⟩ <;> simp
  | oom =>
      exact (h.mono (.of_eq rfl rfl) (fun m w found => .inr ⟨w, found, rfl⟩) (fun _ _ found => found)
        (fun _ _ holds => holds) fun a m mem => .inl (by simpa using mem))
  | register alive found =>
      refine Filed.fewer (setUnlinked_filed h found (by rfl)) ?_
      simp +contextual
  | setPurpose => exact (modifyCirc_filed h (by simp)).fewer (by simp)

end Filed

/-! ## Launches under way -/

def InFlight (stack : List Frame) (n : Nonce) (set : Nat) (c : CircId) : Prop :=
  .establish n set c ∈ stack ∨ .addLeg n set c ∈ stack

structure Tenanted (d : Pools) (stack : List Frame) : Prop where
  empty : ∀ n u, d.unlinked n = some u → u.legs = [] → stack.head? = some (.launchLeg n) ∨
    ∃ c, InFlight stack n u.id c ∧ (d.circs c).marked = false
  pending : ∀ n set c, InFlight stack n set c → (d.circs c).marked = false →
    (d.circs c).pendingNonce = some n
  born : ∀ n set c, InFlight stack n set c → c ∈ d.global

/-- `launch_leg_is_allowed` on the object `conflux_launch_leg` finds or creates for the nonce. -/
def Pools.launchLegIsAllowed (d : Pools) (p : Params) (n : Nonce) : Bool :=
  ((d.unlinkedGetOrCreate n).1.cfxs (d.unlinkedGetOrCreate n).2.cfx).all fun x =>
    x.numLegLaunch < p.numLegsSet + p.maxUnlinkedLegRetry

def launchable (p : Params) (s : State) (e : Event) : Bool :=
  match s.stack, e with
  | .launchLeg n :: _, .build .. =>
      s.pools.launchLegIsAllowed p n || (s.pools.unlinked n).any (!·.legs.isEmpty)
  | _, _ => true

section Tenanted
variable {p : Params} {d d' : Pools} {stack stack' : List Frame} {e : Event}

theorem not_inFlight_nil {n : Nonce} {set : Nat} {c : CircId} : ¬ InFlight [] n set c := by
  simp [InFlight]

theorem Tenanted.mono (h : Tenanted d stack) (notLaunch : ∀ n, stack.head? ≠ some (.launchLeg n))
    (unlinked : ∀ n v, d'.unlinked n = some v → v.legs = [] →
      stack'.head? = some (.launchLeg n) ∨ ∃ u, d.unlinked n = some u ∧ u.id = v.id ∧ u.legs = [])
    (circs : ∀ c, (d'.circs c).marked = (d.circs c).marked ∧
      (d'.circs c).pendingNonce = (d.circs c).pendingNonce)
    (global : d'.global = d.global) (flight : ∀ n set c, InFlight stack' n set c ↔ InFlight stack n set c) :
    Tenanted d' stack' where
  empty n v found empty := by
    rcases unlinked n v found empty with launch | ⟨u, was, same, wasEmpty⟩
    · exact .inl launch
    · obtain ⟨c, flies, alive⟩ := (h.empty n u was wasEmpty).resolve_left (notLaunch n)
      refine .inr ⟨c, (flight n v.id c).mpr (same ▸ flies), ?_⟩
      rw [(circs c).1, alive]
  pending n set c flies alive := by
    rw [(circs c).1] at alive
    rw [(circs c).2]
    exact h.pending n set c ((flight n set c).mp flies) alive
  born n set c flies := by
    rw [global]
    exact h.born n set c ((flight n set c).mp flies)

theorem Tenanted.idle (h : Tenanted d []) (n : Nonce) (u : Unlinked) (found : d.unlinked n = some u) :
    u.legs ≠ [] := by
  intro empty
  rcases h.empty n u found empty with launch | ⟨c, flies, -⟩
  · cases launch
  · exact not_inFlight_nil flies

theorem Tenanted.of_idle (tenants : ∀ n u, d.unlinked n = some u → u.legs ≠ [])
    (flight : ∀ n set c, ¬ InFlight stack n set c) : Tenanted d stack where
  empty n u found empty := absurd empty (tenants n u found)
  pending n set c flies := absurd flies (flight n set c)
  born n set c flies := absurd flies (flight n set c)

theorem Closes.not_inFlight {c : CircId} {full : Bool} {frames : List Frame}
    (closes : Closes d c full d' frames) (n : Nonce) (set : Nat) (a : CircId) :
    ¬ InFlight frames n set a := by
  rcases closes.leaves with rfl | ⟨m, u, rfl, -⟩ | ⟨id, x, -, -, rfl | rfl⟩ <;> simp [InFlight]

theorem Closes.tenanted {c : CircId} {full : Bool} {frames rest : List Frame}
    (closes : Closes (d.mark c) c full d' frames) (filed : Filed d stack)
    (h : Tenanted d (.markForClose c :: rest)) : Tenanted d' (frames ++ rest) := by
  have flight : ∀ n set a, InFlight (frames ++ rest) n set a →
      InFlight (.markForClose c :: rest) n set a := fun n set a flies => by
    have new := closes.not_inFlight n set a
    simp only [InFlight, List.mem_append, List.mem_cons, reduceCtorEq, false_or] at new flies ⊢
    tauto
  have others : ∀ a, (d'.circs a).marked = false → a ≠ c ∧ d'.circs a = d.circs a := fun a alive => by
    have ne : a ≠ c := fun here => by
      rw [(closes.circs a).1, here] at alive
      simp [Pools.mark, Pools.modifyCirc] at alive
    refine ⟨ne, ((closes.circs a).2.2.2 ne).trans ?_⟩
    simp [Pools.mark, Pools.modifyCirc, ne]
  constructor
  · intro n v found empty
    have marked : Filed (d.mark c) stack := modifyCirc_filed filed (by simp)
    obtain ⟨u, was, -, same, wasEmpty⟩ := closes.unlinked marked n v found
    obtain ⟨isEmpty, notPending⟩ := wasEmpty empty
    obtain ⟨a, flies, alive⟩ := (h.empty n u was isEmpty).resolve_left (by simp)
    have ne : a ≠ c := fun here => by
      apply notPending
      simpa [Pools.mark, Pools.modifyCirc, here] using h.pending n u.id a flies alive
    refine .inr ⟨a, ?_, ?_⟩
    · rw [← same]
      simp only [InFlight, List.mem_append, List.mem_cons, reduceCtorEq, false_or] at flies ⊢
      tauto
    · rw [(closes.circs a).1]
      simpa [Pools.mark, Pools.modifyCirc, ne] using alive
  · intro n set a flies alive
    obtain ⟨-, same⟩ := others a alive
    rw [same] at alive ⊢
    exact h.pending n set a (flight n set a flies) alive
  · intro n set a flies
    rw [closes.untouched.2.1]
    exact h.born n set a (flight n set a flies)

theorem launch_tenanted {n : Nonce} {c : CircId} {path : Option Path} {u : Unlinked} {x : Cfx}
    {rest frames : List Frame} (h : Tenanted d (.launchLeg n :: rest)) (unborn : c ∉ d.global)
    (created : d.unlinkedGetOrCreate n = (d', u))
    (flight : ∀ m set a, InFlight (frames ++ rest) m set a ↔
      m = n ∧ set = u.id ∧ a = c ∨ InFlight rest m set a) :
    Tenanted (d'.newCircuit c n u.cfx x path) (frames ++ rest) := by
  have found := getOrCreate_found d n
  have others {m : Nonce} (other : m ≠ n) := getOrCreate_unlinked d other
  have circs := (getOrCreate_frame d n).1
  have global := (getOrCreate_frame d n).2.2.2
  simp only [created] at found circs global others
  have old : ∀ m set a, InFlight rest m set a → InFlight (.launchLeg n :: rest) m set a :=
    fun m set a flies => by simpa [InFlight] using flies
  have ne : ∀ m set a, InFlight rest m set a → a ≠ c := fun m set a flies here =>
    unborn (here ▸ h.born m set a (old m set a flies))
  constructor
  · intro m v isFound empty
    by_cases here : m = n
    · subst here
      obtain rfl := Option.some.inj (found.symm.trans isFound)
      refine .inr ⟨c, (flight m u.id c).mpr (.inl ⟨rfl, rfl, rfl⟩), ?_⟩
      simp [Pools.newCircuit, Circ.plain]
    · have was : d.unlinked m = some v := (others here).symm.trans isFound
      obtain ⟨a, flies, alive⟩ := (h.empty m v was empty).resolve_left (by simpa using Ne.symm here)
      have isOld : InFlight rest m v.id a := by simpa [InFlight] using flies
      refine .inr ⟨a, (flight m v.id a).mpr (.inr isOld), ?_⟩
      simpa [Pools.newCircuit, ne m v.id a isOld, circs] using alive
  · intro m set a flies alive
    rcases (flight m set a).mp flies with ⟨rfl, -, rfl⟩ | isOld
    · simp [Pools.newCircuit]
    · have isOther := ne m set a isOld
      simp only [Pools.newCircuit, Function.update_of_ne isOther, circs] at alive ⊢
      exact h.pending m set a (old m set a isOld) alive
  · intro m set a flies
    change a ∈ c :: d'.global
    rcases (flight m set a).mp flies with ⟨-, -, rfl⟩ | isOld
    · exact List.mem_cons_self
    · rw [global]
      exact List.mem_cons_of_mem _ (h.born m set a (old m set a isOld))

theorem refuse_tenanted {n : Nonce} {u : Unlinked} {rest : List Frame}
    (h : Tenanted d (.launchLeg n :: rest)) (found : d.unlinked n = some u) (legs : u.legs ≠ []) :
    Tenanted d rest where
  empty m v isFound empty := by
    have other : n ≠ m := by
      rintro rfl
      obtain rfl := Option.some.inj (found.symm.trans isFound)
      exact legs empty
    obtain ⟨a, flies, alive⟩ := (h.empty m v isFound empty).resolve_left (by simpa using other)
    exact .inr ⟨a, by simpa [InFlight] using flies, alive⟩
  pending m set a flies := h.pending m set a (by simpa [InFlight] using flies)
  born m set a flies := h.born m set a (by simpa [InFlight] using flies)

theorem rebuild_tenanted {c : CircId} {n : Nonce} {id : CfxId} {rest : List Frame}
    (h : Tenanted d (.afterClose c n :: rest)) (rebuilt : d.rebuild c n id = .ok d') :
    Tenanted d' (.launchLeg n :: rest) := by
  have unlinked : ∀ m, m ≠ n → d'.unlinked m = d.unlinked m := fun m other => by
    rcases rebuild_inv rebuilt with ⟨u, -, -, rfl⟩ | ⟨d₁, u, created, -, rfl⟩
    · rfl
    · have same := getOrCreate_unlinked d other
      rw [created] at same
      simpa [Pools.modifyCirc, Pools.setCfx, Pools.setUnlinked, other] using same
  have circs : ∀ a, (d'.circs a).marked = (d.circs a).marked ∧
      (d'.circs a).pendingNonce = (d.circs a).pendingNonce := fun a => by
    rcases rebuild_inv rebuilt with ⟨u, -, -, rfl⟩ | ⟨d₁, u, created, -, rfl⟩
    · by_cases here : a = c <;> simp [Pools.modifyCirc, here]
    · have same := (getOrCreate_frame d n).1
      simp only [created] at same
      by_cases here : a = c <;> simp [Pools.modifyCirc, Pools.setCfx, Pools.setUnlinked, here, same]
  have global : d'.global = d.global := by
    rcases rebuild_inv rebuilt with ⟨u, -, -, rfl⟩ | ⟨d₁, u, created, -, rfl⟩
    · rfl
    · have same := (getOrCreate_frame d n).2.2.2
      rwa [created] at same
  refine h.mono (by simp) (fun m v found empty => ?_) circs global (by simp [InFlight])
  by_cases here : m = n
  · exact .inl (by rw [here]; rfl)
  · rw [unlinked m here] at found
    exact .inr ⟨v, found, rfl, empty⟩

theorem forget_tenanted {n : Nonce} {set : Nat} {c : CircId} {rest : List Frame}
    (h : Tenanted d (.addLeg n set c :: rest))
    (closed : (d.circs c).marked = true ∨ (d.circs c).pendingNonce = none) : Tenanted d rest where
  empty m v found empty := by
    obtain ⟨a, flies, alive⟩ := (h.empty m v found empty).resolve_left (by simp)
    have pending := h.pending m v.id a flies alive
    have other : a ≠ c := by
      rintro rfl
      rcases closed with marked | none
      · rw [marked] at alive
        cases alive
      · rw [none] at pending
        cases pending
    refine .inr ⟨a, ?_, alive⟩
    simpa [InFlight, other] using flies
  pending m set a flies := h.pending m set a (flies.imp (.tail _) (.tail _))
  born m set a flies := h.born m set a (flies.imp (.tail _) (.tail _))

theorem register_tenanted {n : Nonce} {c : CircId} {u : Unlinked} {rest : List Frame}
    (h : Tenanted d (.addLeg n u.id c :: rest)) :
    Tenanted (d.register c n u) rest where
  empty m v isFound empty := by
    simp only [Pools.register, Pools.setUnlinked, Function.update_apply] at isFound
    split at isFound
    · obtain rfl := Option.some.inj isFound
      simp at empty
    · rename_i other
      obtain ⟨a, flies, alive⟩ := (h.empty m v isFound empty).resolve_left (by simp)
      refine .inr ⟨a, ?_, alive⟩
      simpa [InFlight, other] using flies
  pending m set a flies := h.pending m set a (flies.imp (.tail _) (.tail _))
  born m set a flies := h.born m set a (flies.imp (.tail _) (.tail _))

theorem Move.tenanted {s : State} (move : Move p s.pools s.stack e d' stack')
    (filed : Filed s.pools s.stack) (h : Tenanted s.pools s.stack) (ok : launchable p s e = true) :
    Tenanted d' stack' := by
  obtain ⟨d, stack, phase, fault⟩ := s
  dsimp only at move filed h
  cases move with
  | launchSet | add | close | closeSet | flags => exact .of_idle h.idle (by simp [InFlight])
  | @repurpose c full _ frames isOpen closes =>
      refine .of_idle (fun n v found empty => ?_) fun n set a flies => ?_
      · obtain ⟨u, was, -, -, wasEmpty⟩ := closes.unlinked filed n v found
        exact h.idle n u was (wasEmpty empty).1
      · refine closes.not_inFlight n set a ?_
        simpa [InFlight] using flies
  | @answer c _ _ n u _ pending found next =>
      refine .of_idle (fun m v isFound empty => ?_) ?_
      · simp only [Pools.setUnlinked, Function.update_apply] at isFound
        split at isFound
        · obtain rfl := Option.some.inj isFound
          exact h.idle n u found (by simpa [Unlinked.answer] using empty)
        · exact h.idle m v isFound empty
      · rcases next with rfl | rfl <;> simp [InFlight]
  | finalize =>
      refine .of_idle (fun m v isFound => ?_) (by simp [InFlight])
      simp only [Pools.finalizeSet, Function.update_apply] at isFound
      split at isFound
      · cases isFound
      · exact h.idle m v isFound
  | free _ frees =>
      refine .of_idle (fun m v isFound => ?_) (by simp [InFlight])
      obtain ⟨u, was, same⟩ := frees.shrinks.unlinked m v isFound
      rw [← same]
      exact h.idle m u was
  | mark alive closes => exact closes.tenanted filed h
  | skip | markAll | spare | settle | refill =>
      refine h.mono (by simp) (fun m v found empty => .inr ⟨v, found, rfl, empty⟩) (by simp) rfl ?_
      simp [InFlight]
  | buildFails | built =>
      refine h.mono (by simp) (fun m v found empty => .inr ⟨v, found, rfl, empty⟩) (by simp) rfl ?_
      intro m set a
      simp only [InFlight, List.mem_cons, Frame.establish.injEq, Frame.addLeg.injEq, reduceCtorEq, false_or]
      tauto
  | @deleteEmpty n _ _ u x found live empty =>
      refine h.mono (by simp) (fun m v isFound isEmpty => .inr ⟨v, ?_, rfl, isEmpty⟩) (by simp) ?_
        (by simp [InFlight])
      · rw [deleteSet_unlinked] at isFound
        split at isFound
        · cases isFound
        · exact isFound
      · unfold Pools.deleteSet
        split <;> rfl
  | teardown =>
      exact h.mono (by simp) (fun m v found empty => .inr ⟨v, found, rfl, empty⟩) (fun _ => ⟨rfl, rfl⟩) rfl
        (by simp [InFlight])
  | @rebuild c n _ _ id x _ unlinked holds live rebuilt =>
      exact rebuild_tenanted h rebuilt
  | @refuse n c path _ _ u x _ created live spent =>
      have spent : d.launchLegIsAllowed p n = false := by
        simpa [Pools.launchLegIsAllowed, created, live] using spent
      simp only [launchable, spent, Bool.false_or] at ok
      obtain ⟨v, found, legs⟩ := (Option.any_eq_true _ _).mp ok
      simp only [Pools.unlinkedGetOrCreate, found] at created
      obtain ⟨rfl, rfl⟩ := Prod.mk.inj created
      exact refuse_tenanted h found (by simpa using legs)
  | @launch n c path _ frames _ u x _ unborn created live allowed lookup next =>
      refine launch_tenanted h unborn created fun m set a => ?_
      rcases next with ⟨-, rfl⟩ | ⟨_, -, -, rfl⟩ <;> simp [InFlight] <;> tauto
  | oom =>
      exact h.mono (by simp) (fun m v found empty => .inr ⟨v, found, rfl, empty⟩) (fun _ => ⟨rfl, rfl⟩) rfl
        (by simp [InFlight])
  | forget closed => exact forget_tenanted h closed
  | register alive found => exact register_tenanted h
  | @setPurpose c =>
      refine h.mono (by simp) (fun m v found empty => .inr ⟨v, found, rfl, empty⟩) (fun a => ?_) rfl
        (by simp [InFlight])
      by_cases here : a = c <;> simp [Pools.modifyCirc, here]

end Tenanted

/-- Between calls, every set in the unlinked pool of a client has a leg, as long as no launch is
refused for a set that has none. -/
theorem unlinked_sets_have_legs {p : Params} {s : State}
    (reach : (State.machine p).Reach (fun s e => launchable p s e = true) (State.initial .client) s)
    (idle : s.stack = []) {n : Nonce} {u : Unlinked} (found : s.pools.unlinked n = some u) :
    u.legs ≠ [] := by
  have inv := client_invariant (I := fun d stack => Filed d stack ∧ Tenanted d stack)
    (J := fun d => ∀ n u, d.unlinked n = some u → u.legs ≠ []) ?_ ?_ ?_ ?_ reach
  · rcases inv.2 with ⟨-, -, tenanted⟩ | ⟨-, -, tenants⟩
    · rw [idle] at tenanted
      exact tenanted.idle n u found
    · exact tenants n u found
  · exact ⟨⟨by simp [State.initial], by simp [State.initial], by simp [State.initial, Circ.plain], by simp⟩,
      .of_idle (by simp [State.initial]) (by simp [InFlight])⟩
  · intro s e d' stack' _ inv ok move
    exact ⟨move.filed inv.1, move.tenanted inv.1 inv.2 ok⟩
  · intro d inv
    exact inv.2.idle
  · intro d d' tenants smaller n v isFound
    obtain ⟨u, was, same⟩ := smaller.unlinked n v isFound
    rw [← same]
    exact tenants n u was

/-- The first leg of a set is launched, and a second one fails to find a path. -/
theorem set_survives_failed_leg : ∃ s, (State.machine .consensus).Reach
    (fun s e => launchable .consensus s e = true) (State.initial .client) s ∧
    ∃ u, s.pools.unlinked 7 = some u ∧ u.legs ≠ [] := by
  obtain ⟨s, reach, idle, found⟩ := Machine.exists_of_run (State.machine .consensus)
    (fun s e => launchable .consensus s e = true) (State.initial .client)
    (P := fun s => s.stack = [] ∧ (s.pools.unlinked 7).isSome)
    [.launchSet 7, .build 1 (some ⟨9, 1, 2⟩), .built, .run false, .add 7, .build 2 none, .run false,
      .build 3 (some ⟨9, 3, 4⟩), .built, .run false, .run false] (by decide)
  obtain ⟨u, found⟩ := Option.isSome_iff_exists.mp found
  exact ⟨s, reach, u, found, unlinked_sets_have_legs reach idle found⟩

/-- A set that has linked loses its budget to launches that find no path; the next one is refused and
leaves its unlinked set behind, without legs. -/
theorem empty_set_survives_refusal : ¬ ∀ s, (State.machine .consensus).Reach (fun _ _ => True)
    (State.initial .client) s → s.stack = [] → ∀ n u, s.pools.unlinked n = some u → u.legs ≠ [] := by
  intro claim
  obtain ⟨s, reach, idle, found⟩ := Machine.exists_of_run (State.machine .consensus)
    (fun _ _ => True) (State.initial .client)
    (P := fun s => s.stack = [] ∧ (s.pools.unlinked 7).any (·.legs.isEmpty))
    ([.launchSet 7, .build 1 (some ⟨9, 1, 2⟩), .built, .run false,
      .add 7, .build 2 (some ⟨9, 3, 4⟩), .built, .run false,
      .recvLinked 1 true true, .recvLinked 2 true true] ++
      [3, 4, 5, 6, 7].flatMap (fun c => [.add 7, .build c none, .run false, .run false]) ++
      [.add 7, .build 8 none]) (by decide)
  obtain ⟨u, found, empty⟩ := (Option.any_eq_true _ _).mp found
  exact claim s reach idle 7 u found (by simpa using empty)

end TorJet.Pool
