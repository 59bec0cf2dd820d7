import TorJet.Pool.Sound
import Mathlib.Data.Finset.Card

/-!
# Prebuilding sets

`conflux_predict_new` with the loops it runs: it launches sets up to a number that counts the linked
and the unlinked ones, and `launch_new_set` launches the legs of one set.
-/

namespace TorJet.Pool
open Smartlist Base

/-- `max_linked_set` and `max_prebuilt_set`. -/
structure Targets where
  maxLinkedSet : Nat
  maxPrebuilt : Nat
  deriving DecidableEq, Repr

def Pools.numLinked (d : Pools) : Nat := (d.nonces.toFinset.filter fun n => (d.linked n).isSome).card

def Pools.numUnlinked (d : Pools) : Nat := (d.nonces.toFinset.filter fun n => (d.unlinked n).isSome).card

structure Client where
  state : State
  sets : Nat
  current : Option (Nonce × Nat)

inductive Call
  | predictNew
  | pool (e : Event)
  deriving DecidableEq, Repr

namespace Client
variable (p : Params) (q : Targets) (w : Client)

/-- What `conflux_launch_leg` returns, read where its last frame is about to be done. -/
def launched (s : State) : Bool :=
  match s.stack with
  | [.addLeg _ _ c] => !(s.pools.circs c).marked && (s.pools.circs c).pendingNonce.isSome
  | _ => false

def predictNew : Client :=
  let numSet := w.state.pools.numUnlinked + w.state.pools.numLinked
  if q.maxLinkedSet ≤ w.state.pools.numLinked then w
  else if q.maxPrebuilt ≤ numSet then w
  -- a set without legs is launched by doing nothing
  else if p.numLegsSet = 0 then w
  else { w with sets := q.maxPrebuilt - numSet }

/-- A call while no code of the pools runs: the loops of `conflux_predict_new` go on before anything
else happens. -/
def call (e : Event) (t : State) : Option Client :=
  match w.current, e with
  | none, .launchSet n =>
      if 0 < w.sets then some { state := t, sets := w.sets - 1, current := some (n, p.numLegsSet - 1) }
      else none
  | none, _ => if w.sets = 0 then some { w with state := t } else none
  | some (n, legs), .add m =>
      if m = n ∧ 0 < legs then some { w with state := t, current := some (n, legs - 1) } else none
  | some _, _ => none

/-- The code of the pools goes on; when it returns to `launch_new_set`, a failed launch ends both
loops. -/
def goOn (t : State) : Client :=
  match w.current with
  | none => { w with state := t }
  | some (n, legs) =>
      if t.stack ≠ [] then { w with state := t }
      else if launched w.state then
        { w with state := t, current := if legs = 0 then none else some (n, legs) }
      else { state := t, sets := 0, current := none }

def step : Call → Option Client
  | .predictNew =>
      if w.state.stack = [] ∧ w.state.phase = .running ∧ w.state.fault = none ∧ w.sets = 0 ∧
        w.current = none then some (w.predictNew p q)
      else none
  | .pool e =>
      match w.state.step p e with
      | none => none
      | some t => if w.state.stack = [] then w.call p e t else some (w.goOn t)

def machine : Machine Client Call where
  step w e := step p q w e

def initial : Client where
  state := .initial .client
  sets := 0
  current := none

end Client

def keepsPurpose : Call → Bool
  | .pool (.repurpose ..) => false
  | _ => true

/-! ## Nonces that are in a pool, or about to be -/

def Live (d : Pools) (stack : List Frame) (n : Nonce) : Prop :=
  d.Pooled n ∨ (∃ c, .afterClose c n ∈ stack ∧ (d.circs c).conflux.isSome) ∨ .launchLeg n ∈ stack

section Live
variable {p : Params} {d d' : Pools} {stack stack' rest : List Frame} {c : CircId} {n : Nonce} {e : Event}

theorem Live.mono {m : Nonce} (live : Live d' stack' m) (pooled : d'.Pooled m → Live d stack m)
    (closing : ∀ c, .afterClose c m ∈ stack' → (d'.circs c).conflux.isSome → Live d stack m)
    (launch : .launchLeg m ∈ stack' → Live d stack m) : Live d stack m := by
  rcases live with isPooled | ⟨c, mem, holds⟩ | mem
  · exact pooled isPooled
  · exact closing c mem holds
  · exact launch mem

theorem Live.restack {m : Nonce} (live : Live d stack' m)
    (closing : ∀ c, .afterClose c m ∈ stack' → .afterClose c m ∈ stack)
    (launch : .launchLeg m ∈ stack' → Live d stack m) : Live d stack m :=
  live.mono .inl (fun c mem holds => .inr (.inl ⟨c, closing c mem, holds⟩)) launch

theorem Closes.pooled {full : Bool} {frames : List Frame} (closes : Closes d c full d' frames)
    (filed : Filed d stack) {m : Nonce} (pooled : d'.Pooled m) : d.Pooled m := by
  rcases pooled with linked | unlinked
  · obtain ⟨id, found⟩ := Option.isSome_iff_exists.mp linked
    exact .inl (by rw [closes.linked m id found]; rfl)
  · obtain ⟨v, found⟩ := Option.isSome_iff_exists.mp unlinked
    obtain ⟨u, was, -⟩ := closes.unlinked filed m v found
    exact .inr (by rw [was]; rfl)

theorem Closes.live {full : Bool} {frames : List Frame} (closes : Closes d c full d' frames)
    (h : Neat d) (filed : Filed d stack) (closing : ∀ a m, .afterClose a m ∈ rest → .afterClose a m ∈ stack)
    (launch : ∀ m, .launchLeg m ∉ rest)
    (stale : ∀ id x, (d.circs c).conflux = some id → d.cfxs id = some x → x.legs = [] →
      .afterClose c x.nonce ∈ stack)
    {m : Nonce} (live : Live d' (frames ++ rest) m) : Live d stack m := by
  have pooled : d'.Pooled m → Live d stack m := fun isPooled => .inl (closes.pooled filed isPooled)
  refine live.mono pooled (fun a mem holds => ?_) fun mem => ?_
  · obtain ⟨i, isHeld⟩ := Option.isSome_iff_exists.mp holds
    have held := (closes.circs a).2.1 i isHeld
    rcases List.mem_append.mp mem with new | old
    · rcases closes.leaves with rfl | ⟨k, v, rfl, -⟩ | ⟨id, x, isHolder, isLive, next⟩
      · cases new
      · simp at new
      · obtain ⟨rfl, rfl⟩ : a = c ∧ m = x.nonce := by rcases next with rfl | rfl <;> simpa using new
        by_cases last : x.legs = []
        · exact .inr (.inl ⟨a, stale id x isHolder isLive last, by rw [held]; rfl⟩)
        · exact .inl (.inl (by rw [h.inPool id x isLive last]; rfl))
    · exact .inr (.inl ⟨a, closing a m old, by rw [held]; rfl⟩)
  · rcases List.mem_append.mp mem with new | old
    · rcases closes.leaves with rfl | ⟨k, v, rfl, -, -, found⟩ | ⟨id, x, -, -, rfl | rfl⟩
      · cases new
      · obtain rfl : m = k := by simpa using new
        exact pooled (.inr (by rw [found]; rfl))
      · simp at new
      · simp at new
    · exact absurd old (launch m)

theorem setUnlinked_pooled {u v : Unlinked} {m : Nonce} (found : d.unlinked n = some u)
    (pooled : (d.setUnlinked n (some v)).Pooled m) : d.Pooled m := by
  refine pooled.imp_right fun isSome => ?_
  simp only [Pools.setUnlinked, Function.update_apply] at isSome
  split at isSome
  · rename_i here
    rw [here, found]
    rfl
  · exact isSome

theorem finalizeSet_pooled {u : Unlinked} {x : Cfx} {m : Nonce} (pooled : (d.finalizeSet u x).Pooled m)
    (found : (d.unlinked x.nonce).isSome) : d.Pooled m := by
  simp only [Pools.Pooled, Pools.finalizeSet, Function.update_apply] at pooled
  split at pooled
  · rename_i here
    exact .inr (here ▸ found)
  · exact pooled

theorem getOrCreate_pooled {m : Nonce} (pooled : (d.unlinkedGetOrCreate n).1.Pooled m) :
    d.Pooled m ∨ m = n := by
  rcases pooled with linked | unlinked
  · rw [(getOrCreate_frame d n).2.1] at linked
    exact .inl (.inl linked)
  · by_cases here : m = n
    · exact .inr here
    · rw [getOrCreate_unlinked d here] at unlinked
      exact .inl (.inr unlinked)

theorem deleteSet_pooled {u : Unlinked} {m : Nonce} (pooled : (d.deleteSet n u).Pooled m) :
    d.Pooled m := by
  refine pooled.imp (by simp) fun isSome => ?_
  rw [deleteSet_unlinked] at isSome
  split at isSome
  · cases isSome
  · exact isSome

theorem Move.live (move : Move p d stack e d' stack') (h : Sound d stack) {m : Nonce}
    (live : Live d' stack' m) : Live d stack m ∨ e = .launchSet m ∧ stack = [] := by
  cases move with
  | launchSet fresh =>
      rcases live with pooled | ⟨c, mem, holds⟩ | mem
      · exact .inl (.inl pooled)
      · simp at mem
      · obtain rfl : m = _ := by simpa using mem
        exact .inr ⟨rfl, rfl⟩
  | add isOpen nonce =>
      refine .inl (live.restack (by simp) fun mem => .inl ?_)
      obtain rfl : m = _ := by simpa using mem
      exact h.pooled isOpen nonce
  | close | closeSet => exact .inl (live.restack (by simp) (by simp))
  | repurpose isOpen closes =>
      refine .inl (closes.live h.neat h.filed (by simp) (by simp) (fun id x holds live last => ?_) live)
      exact h.stale _ id x holds live last (isOpen_alive isOpen)
  | answer pending found next =>
      refine .inl (live.mono (fun pooled => .inl (setUnlinked_pooled found pooled)) (fun c mem => ?_) fun mem => ?_)
      · rcases next with rfl | rfl <;> simp at mem
      · rcases next with rfl | rfl <;> simp at mem
  | @finalize c _ _ n u x pending found isLeg isLive =>
      have nonce := (h.filed.unlinked n u found).2 x isLive
      refine .inl (live.mono (fun pooled => .inl (finalizeSet_pooled pooled ?_)) (by simp) (by simp))
      rw [nonce, found]
      rfl
  | free marked frees =>
      refine .inl (live.mono (fun pooled => .inl ?_) (by simp) (by simp))
      have smaller := frees.shrinks
      rcases pooled with linked | unlinked
      · obtain ⟨id, found⟩ := Option.isSome_iff_exists.mp linked
        exact .inl (by rw [smaller.linked m id found]; rfl)
      · obtain ⟨v, found⟩ := Option.isSome_iff_exists.mp unlinked
        obtain ⟨u, was, -⟩ := smaller.unlinked m v found
        exact .inr (by rw [was]; rfl)
  | flags => exact .inl (live.mono .inl (by simp) (by simp))
  | skip | spare =>
      exact .inl (live.restack (fun c mem => .tail _ mem) fun mem => .inr (.inr (.tail _ mem)))
  | @mark c full rest frames _ alive closes =>
      have marked : Live (d.mark c) (.markForClose c :: rest) m := by
        refine closes.live (modifyCirc_neat h.neat rfl rfl) (modifyCirc_filed h.filed (by simp))
          (fun a k mem => .tail _ mem) h.deep (fun id x holds isLive last => ?_) live
        refine h.stale c id x ?_ isLive last alive
        simpa [Pools.mark, Pools.modifyCirc] using holds
      refine .inl (marked.mono .inl (fun a mem holds => .inr (.inl ⟨a, mem, ?_⟩)) fun mem => .inr (.inr mem))
      by_cases here : a = c
      · simpa [Pools.mark, Pools.modifyCirc, here] using holds
      · simpa [Pools.mark, Pools.modifyCirc, here] using holds
  | markAll =>
      refine .inl (live.restack (fun c mem => List.mem_cons_of_mem _ ?_) fun mem => .inr (.inr (List.mem_cons_of_mem _ ?_)))
      · simpa using mem
      · simpa using mem
  | deleteEmpty =>
      refine .inl (live.mono (fun pooled => .inl (deleteSet_pooled pooled)) (fun c mem holds => ?_) fun mem => ?_)
      · rw [deleteSet_circs] at holds
        exact .inr (.inl ⟨c, by simpa using mem, holds⟩)
      · exact .inr (.inr (by simpa using mem))
  | teardown =>
      refine .inl (live.mono .inl (fun c mem holds => .inr (.inl ⟨c, List.mem_cons_of_mem _ ?_, holds⟩)) fun mem =>
        .inr (.inr (List.mem_cons_of_mem _ ?_)))
      · simpa using mem
      · simpa using mem
  | settle => exact .inl (live.restack (fun c mem => .tail _ mem) fun mem => .inr (.inr (.tail _ mem)))
  | refill linked =>
      refine .inl (live.restack (fun c mem => List.mem_cons_of_mem _ ?_) fun mem => ?_)
      · simpa using mem
      · rcases List.mem_cons.mp mem with eq | old
        · obtain ⟨⟩ := eq
          exact .inl (.inl linked)
        · exact .inr (.inr (.tail _ old))
  | @rebuild c n full rest id x _ unlinked holds isLive rebuilt =>
      obtain ⟨-, rfl⟩ := h.rebuilt unlinked holds isLive rebuilt
      have here : Live d (.afterClose c n :: rest) n := .inr (.inl ⟨c, .head _, by rw [holds]; rfl⟩)
      refine .inl (live.mono (fun pooled => ?_) (fun a mem isHeld => ?_) fun mem => ?_)
      · by_cases same : m = n
        · rw [same]
          exact here
        · simp only [Pools.Pooled, Pools.adopt, Pools.modifyCirc, Function.update_of_ne same] at pooled
          exact .inl pooled
      · have old : .afterClose a m ∈ rest := by simpa using mem
        refine .inr (.inl ⟨a, .tail _ old, ?_⟩)
        by_cases same : a = c
        · simp [Pools.adopt, Pools.modifyCirc, same] at isHeld
        · simpa [Pools.adopt, Pools.modifyCirc, same] using isHeld
      · rcases List.mem_cons.mp mem with eq | old
        · obtain ⟨⟩ := eq
          exact here
        · exact .inr (.inr (.tail _ old))
  | @refuse n c path rest _ u x unborn created =>
      have circs := (getOrCreate_frame d n).1
      have pooled := getOrCreate_pooled (d := d) (n := n) (m := m)
      simp only [created] at circs pooled
      refine .inl (live.mono (fun isPooled => ?_) (fun a mem holds => ?_) fun mem => .inr (.inr (.tail _ mem)))
      · rcases pooled isPooled with was | rfl
        · exact .inl was
        · exact .inr (.inr (.head _))
      · rw [circs] at holds
        exact .inr (.inl ⟨a, .tail _ mem, holds⟩)
  | @launch n c path rest frames d₁ u x _ unborn created isLive allowed lookup next =>
      have circs := (getOrCreate_frame d n).1
      have pooled := getOrCreate_pooled (d := d) (n := n) (m := m)
      simp only [created] at circs pooled
      refine .inl (live.mono (fun isPooled => ?_) (fun a mem holds => ?_) fun mem => .inr (.inr (List.mem_cons_of_mem _ ?_)))
      · rcases pooled isPooled with was | rfl
        · exact .inl was
        · exact .inr (.inr (.head _))
      · have old : .afterClose a m ∈ rest := by
          rcases next with ⟨-, rfl⟩ | ⟨_, -, -, rfl⟩ <;> simpa using mem
        refine .inr (.inl ⟨a, .tail _ old, ?_⟩)
        by_cases same : a = c
        · simp [Pools.newCircuit, Circ.plain, same] at holds
        · simpa [Pools.newCircuit, same, circs] using holds
      · rcases next with ⟨-, rfl⟩ | ⟨_, -, -, rfl⟩ <;> simpa using mem
  | oom =>
      refine .inl (live.mono .inl (fun c mem holds => .inr (.inl ⟨c, ?_, holds⟩)) fun mem => .inr (.inr ?_))
      · simpa using mem
      · simpa using mem
  | buildFails | built =>
      refine .inl (live.restack (fun c mem => List.mem_cons_of_mem _ ?_) fun mem => .inr (.inr (List.mem_cons_of_mem _ ?_)))
      · simpa using mem
      · simpa using mem
  | forget => exact .inl (live.restack (fun c mem => .tail _ mem) fun mem => .inr (.inr (.tail _ mem)))
  | register alive found =>
      exact .inl (live.mono (fun pooled => .inl (setUnlinked_pooled found pooled))
        (fun c mem holds => .inr (.inl ⟨c, .tail _ mem, holds⟩)) fun mem => .inr (.inr (.tail _ mem)))
  | @setPurpose c =>
      refine .inl (live.mono .inl (fun a mem holds => .inr (.inl ⟨a, .tail _ mem, ?_⟩)) fun mem =>
        .inr (.inr (.tail _ mem)))
      by_cases here : a = c
      · simpa [Pools.modifyCirc, here] using holds
      · simpa [Pools.modifyCirc, here] using holds

end Live

/-! ## Runs that keep the purposes of circuits -/

section Shut
variable {p : Params} {d d' : Pools} {stack stack' : List Frame} {c : CircId} {e : Event}

/-- Without changes of purpose, `linked_circuit_closed` only ever runs for closed circuits. -/
def Shut (d : Pools) (stack : List Frame) : Prop :=
  ∀ c n, .afterClose c n ∈ stack → (d.circs c).marked = true ∧ c ∈ d.global

theorem Move.marked (move : Move p d stack e d' stack') (marked : (d.circs c).marked = true)
    (born : c ∈ d.global) : (d'.circs c).marked = true ∧ c ∈ d'.global := by
  cases move with
  | launchSet | add | close | closeSet | answer | flags | skip | markAll | spare | teardown | settle |
    refill | oom | buildFails | built | forget | register => exact ⟨marked, born⟩
  | repurpose isOpen closes =>
      rw [(closes.circs c).1, closes.untouched.2.1]
      exact ⟨marked, born⟩
  | @mark a full rest frames _ alive closes =>
      rw [(closes.circs c).1, closes.untouched.2.1]
      refine ⟨?_, born⟩
      by_cases here : c = a <;> simp [Pools.mark, Pools.modifyCirc, here, marked]
  | finalize =>
      refine ⟨?_, born⟩
      simp only [Pools.finalizeSet]
      split <;> exact marked
  | @free a full _ isMarked frees =>
      have forgot (e : Pools) (same : e.circs = d.circs) (global : e.global = d.global) :
          ((e.forget a).circs c).marked = true ∧ c ∈ (e.forget a).global := by
        refine ⟨?_, global ▸ born⟩
        by_cases here : c = a
        · subst here
          simpa [Pools.forget, Pools.modifyCirc, same] using marked
        · simpa [Pools.forget, Pools.modifyCirc, same, here] using marked
      cases frees <;> exact forgot _ rfl rfl
  | deleteEmpty =>
      rw [deleteSet_circs]
      refine ⟨marked, ?_⟩
      unfold Pools.deleteSet
      split <;> exact born
  | @rebuild a n _ _ id x _ unlinked holds isLive rebuilt =>
      obtain ⟨circs, -, -, global⟩ := getOrCreate_frame d n
      rcases rebuild_inv rebuilt with ⟨u, -, -, rfl⟩ | ⟨d₁, u, created, -, rfl⟩
      · refine ⟨?_, born⟩
        by_cases here : c = a
        · subst here
          simpa [Pools.modifyCirc] using marked
        · simpa [Pools.modifyCirc, here] using marked
      · simp only [created] at circs global
        refine ⟨?_, by simpa [Pools.modifyCirc, Pools.setCfx, Pools.setUnlinked, global] using born⟩
        by_cases here : c = a
        · subst here
          simpa [Pools.modifyCirc, Pools.setCfx, Pools.setUnlinked, circs] using marked
        · simpa [Pools.modifyCirc, Pools.setCfx, Pools.setUnlinked, circs, here] using marked
  | @refuse n _ _ _ _ u x unborn created =>
      obtain ⟨circs, -, -, global⟩ := getOrCreate_frame d n
      simp only [created] at circs global
      rw [circs, global]
      exact ⟨marked, born⟩
  | @launch n a path rest frames d₁ u x _ unborn created =>
      obtain ⟨circs, -, -, global⟩ := getOrCreate_frame d n
      simp only [created] at circs global
      have other : c ≠ a := fun here => unborn (here ▸ born)
      refine ⟨by simpa [Pools.newCircuit, other, circs] using marked, ?_⟩
      change c ∈ a :: d₁.global
      rw [global]
      exact List.mem_cons_of_mem _ born
  | @setPurpose a =>
      refine ⟨?_, born⟩
      by_cases here : c = a
      · subst here
        simpa [Pools.modifyCirc] using marked
      · simpa [Pools.modifyCirc, here] using marked

theorem Move.shut (move : Move p d stack e d' stack') (sound : Sound d stack) (h : Shut d stack)
    (keeps : ∀ c full, e ≠ .repurpose c full) : Shut d' stack' := by
  intro a n mem
  have old (was : .afterClose a n ∈ stack) : (d'.circs a).marked = true ∧ a ∈ d'.global := by
    obtain ⟨marked, born⟩ := h a n was
    exact move.marked marked born
  cases id move with
  | repurpose => exact absurd rfl (keeps _ _)
  | @mark c full rest frames _ alive closes =>
      rcases List.mem_append.mp mem with new | was
      · rcases closes.leaves with rfl | ⟨k, v, rfl, -⟩ | ⟨id, x, holds, -, next⟩
        · cases new
        · simp at new
        · obtain ⟨rfl, -⟩ : a = c ∧ n = x.nonce := by rcases next with rfl | rfl <;> simpa using new
          rw [(closes.circs a).1, closes.untouched.2.1]
          refine ⟨by simp [Pools.mark, Pools.modifyCirc], ?_⟩
          by_contra unborn
          have none := (sound.neat.created a unborn).1
          simp [Pools.mark, Pools.modifyCirc, none] at holds
      · exact old (.tail _ was)
  | answer pending found next => rcases next with rfl | rfl <;> simp at mem
  | launch unborn created live allowed lookup next =>
      rcases next with ⟨-, rfl⟩ | ⟨_, -, -, rfl⟩ <;> exact old (by simpa using mem)
  | settle => exact old (.tail _ mem)
  | refill | rebuild => exact old (List.mem_cons_of_mem _ (by simpa using mem))
  | launchSet | add | close | closeSet | finalize | free | flags => simp at mem
  | _ => exact old (by simpa using mem)

theorem Shut.detaches {s : State} (h : Shut s.pools s.stack) : detaches s = true := by
  unfold TorJet.Pool.detaches
  split
  · rename_i c n rest top
    obtain ⟨marked, -⟩ := h c n (by rw [top]; exact .head _)
    simp [marked]
  · rfl

end Shut

/-! ## The number of sets -/

section Kept
variable {p : Params} {q : Targets} {bound : Nat} {w : Client} {e : Event} {s t : State}

theorem step_live (client : s.pools.side = .client) (running : s.phase = .running)
    (sound : Sound s.pools s.stack) (h : s.step p e = some t) {m : Nonce}
    (live : Live t.pools t.stack m) : Live s.pools s.stack m ∨ e = .launchSet m ∧ s.stack = [] := by
  rcases step_moves client running h with (⟨fault, rfl⟩ | ⟨-, -, move⟩) | ⟨-, rfl⟩
  · exact .inl live
  · exact move.live sound live
  · exact .inl live

theorem idle_live {d : Pools} {m : Nonce} (live : Live d [] m) : d.Pooled m := by
  rcases live with pooled | ⟨c, mem, -⟩ | mem
  · exact pooled
  · cases mem
  · cases mem

theorem Shrinks.pooled {d d' : Pools} (smaller : Shrinks d d') {m : Nonce} (pooled : d'.Pooled m) :
    d.Pooled m := by
  rcases pooled with linked | unlinked
  · obtain ⟨id, found⟩ := Option.isSome_iff_exists.mp linked
    exact .inl (by rw [smaller.linked m id found]; rfl)
  · obtain ⟨v, found⟩ := Option.isSome_iff_exists.mp unlinked
    obtain ⟨u, was, -⟩ := smaller.unlinked m v found
    exact .inr (by rw [was]; rfl)

theorem card_pooled_le {d : Pools} (neat : Neat d) (ns : Finset Nonce) (pooled : ∀ n ∈ ns, d.Pooled n) :
    ns.card ≤ d.numUnlinked + d.numLinked := by
  have known (n : Nonce) (isPooled : d.Pooled n) : n ∈ d.nonces := by
    rcases isPooled with linked | unlinked
    · obtain ⟨id, found⟩ := Option.isSome_iff_exists.mp linked
      obtain ⟨x, live, rfl, -⟩ := neat.owned.linked n id found
      exact neat.keys id x live
    · obtain ⟨u, found⟩ := Option.isSome_iff_exists.mp unlinked
      obtain ⟨x, live, rfl, -⟩ := neat.owned.unlinked n u found
      exact neat.keys u.cfx x live
  refine (Finset.card_le_card fun n mem => ?_).trans (Finset.card_union_le _ _)
  simp only [Finset.mem_union, Finset.mem_filter, List.mem_toFinset]
  have isPooled := pooled n mem
  rcases isPooled with linked | unlinked
  · exact .inr ⟨known n (.inl linked), linked⟩
  · exact .inl ⟨known n (.inr unlinked), unlinked⟩

structure Client.Kept (bound : Nat) (w : Client) : Prop where
  client : w.state.pools.side = .client
  running : w.state.phase = .running → Sound w.state.pools w.state.stack ∧ Shut w.state.pools w.state.stack
  exiting : w.state.phase ≠ .running → w.state.stack = []
  bounded : ∀ ns : Finset Nonce, (∀ n ∈ ns, Live w.state.pools w.state.stack n) → ns.card + w.sets ≤ bound

theorem Client.Kept.step {w' : Client} (h : w.Kept bound) (stepped : w.state.step p e = some t)
    (keeps : ∀ c full, e ≠ .repurpose c full) (state : w'.state = t)
    (sets : w'.sets ≤ w.sets) (fresh : w.state.stack = [] → (∃ n, e = .launchSet n) → w'.sets < w.sets) :
    w'.Kept bound := by
  obtain ⟨s, left, current⟩ := w'
  dsimp only at state sets fresh
  subst state
  by_cases running : w.state.phase = .running
  · obtain ⟨sound, shut⟩ := h.running running
    have bounded (ns : Finset Nonce) (live : ∀ n ∈ ns, Live s.pools s.stack n) :
        ns.card + left ≤ bound := by
      by_cases isNew : ∃ n, e = .launchSet n ∧ w.state.stack = []
      · obtain ⟨n, rfl, idle⟩ := isNew
        have less := fresh idle ⟨n, rfl⟩
        have old := h.bounded (ns.erase n) fun m mem => by
          obtain ⟨ne, isMem⟩ := Finset.mem_erase.mp mem
          refine (step_live h.client running sound stepped (live m isMem)).resolve_right fun isNew => ?_
          exact ne (Event.launchSet.inj isNew.1).symm
        have card : ns.card - 1 ≤ (ns.erase n).card := Finset.pred_card_le_card_erase
        omega
      · have old := h.bounded ns fun m mem =>
          (step_live h.client running sound stepped (live m mem)).resolve_right fun here =>
            isNew ⟨m, here⟩
        omega
    rcases step_moves h.client running stepped with (⟨fault, rfl⟩ | ⟨phase, -, move⟩) | ⟨idle, rfl⟩
    · exact ⟨h.client, fun _ => ⟨sound, shut⟩, fun exiting => absurd running exiting, bounded⟩
    · exact ⟨move.side.trans h.client, fun _ => ⟨move.sound sound shut.detaches,
        move.shut sound shut keeps⟩, fun exiting => absurd (phase.trans running) exiting, bounded⟩
    · exact ⟨h.client, fun running => (by cases running), fun _ => idle, bounded⟩
  · have idle := h.exiting running
    obtain ⟨phase, stack, smaller⟩ := step_exiting running idle stepped
    refine ⟨smaller.side.trans h.client, fun running => absurd running phase, fun _ => stack,
      fun ns live => ?_⟩
    have old := h.bounded ns fun m mem => by
      have isLive := live m mem
      rw [stack] at isLive
      exact .inl (smaller.pooled (idle_live isLive))
    dsimp only
    omega

theorem Client.call_inv {w' : Client} (h : w.call p e t = some w') :
    w'.state = t ∧ w'.sets ≤ w.sets ∧ ((∃ n, e = .launchSet n) → w'.sets < w.sets) := by
  unfold Client.call at h
  split at h
  · split at h
    · obtain rfl := Option.some.inj h
      exact ⟨rfl, Nat.sub_le _ _, fun _ => Nat.sub_lt (by assumption) Nat.one_pos⟩
    · cases h
  · rename_i other
    split at h
    · obtain rfl := Option.some.inj h
      exact ⟨rfl, le_rfl, fun ⟨n, isNew⟩ => absurd isNew (other n)⟩
    · cases h
  · split at h
    · obtain rfl := Option.some.inj h
      exact ⟨rfl, le_rfl, by simp⟩
    · cases h
  · cases h

theorem Client.goOn_inv (w : Client) (t : State) : (w.goOn t).state = t ∧ (w.goOn t).sets ≤ w.sets := by
  unfold Client.goOn
  split
  · exact ⟨rfl, le_rfl⟩
  · split_ifs
    · exact ⟨rfl, le_rfl⟩
    · exact ⟨rfl, le_rfl⟩
    · exact ⟨rfl, le_rfl⟩
    · exact ⟨rfl, Nat.zero_le _⟩

theorem Client.Kept.predictNew (h : w.Kept bound) (enough : q.maxLinkedSet = 0 ∨ q.maxPrebuilt ≤ bound)
    (idle : w.state.stack = []) (running : w.state.phase = .running) : (w.predictNew p q).Kept bound := by
  unfold Client.predictNew
  dsimp only
  split_ifs with capped full none
  · exact h
  · exact h
  · exact h
  · refine ⟨h.client, h.running, h.exiting, fun ns live => ?_⟩
    have room : q.maxPrebuilt ≤ bound := enough.resolve_left (by omega)
    have card := card_pooled_le (h.running running).1.neat ns fun n mem => by
      have isLive := live n mem
      rw [idle] at isLive
      exact idle_live isLive
    dsimp only
    omega

theorem Client.kept (enough : q.maxLinkedSet = 0 ∨ q.maxPrebuilt ≤ bound)
    (reach : (Client.machine p q).Reach (fun _ e => keepsPurpose e = true) Client.initial w) :
    w.Kept bound := by
  induction reach with
  | refl =>
      refine ⟨rfl, fun _ => ⟨initial_sound, fun c n mem => ?_⟩, fun exiting => absurd rfl exiting, fun ns live => ?_⟩
      · cases mem
      · have none : ns = ∅ := by
          refine Finset.eq_empty_of_forall_notMem fun n mem => ?_
          have pooled := idle_live (live n mem)
          simp [Pools.Pooled, Client.initial, State.initial] at pooled
        simp [none, Client.initial]
  | @next w w' e _ keeps action h =>
      cases e with
      | predictNew =>
          obtain ⟨⟨idle, running, -⟩, rfl⟩ : (w.state.stack = [] ∧ w.state.phase = .running ∧
              w.state.fault = none ∧ w.sets = 0 ∧ w.current = none) ∧ w.predictNew p q = w' := by
            simpa [Client.machine, Client.step] using action
          exact h.predictNew enough idle running
      | pool e =>
          obtain ⟨t, stepped, rest⟩ : ∃ t, w.state.step p e = some t ∧
              (if w.state.stack = [] then w.call p e t else some (w.goOn t)) = some w' := by
            simp only [Client.machine, Client.step] at action
            split at action
            · cases action
            · rename_i t stepped
              exact ⟨t, stepped, action⟩
          have keeps (c : CircId) (full : Bool) : e ≠ .repurpose c full := by
            rintro rfl
            cases keeps
          split at rest
          · obtain ⟨state, sets, fresh⟩ := Client.call_inv rest
            exact h.step stepped keeps state sets fun _ => fresh
          · rename_i busy
            obtain rfl := Option.some.inj rest
            obtain ⟨state, sets⟩ := Client.goOn_inv w t
            exact h.step stepped keeps state sets fun idle => absurd idle busy

end Kept

end TorJet.Pool
