import TorJet.Pool.Prebuild

/-!
# What a refill leaves in the pools

`conflux_predict_new` takes the sum of the sizes of the two pools for the number of sets. A set that
recovers a leg is in both.
-/

namespace TorJet.Pool
open Smartlist Base

def Pools.sets (d : Pools) : Finset Nonce :=
  d.nonces.toFinset.filter fun n => (d.linked n).isSome ∨ (d.unlinked n).isSome

def Pools.numSets (d : Pools) : Nat := d.sets.card

def launchedSets (es : List Event) : List Nonce :=
  es.filterMap fun
    | .launchSet n => some n
    | _ => none

def Event.fails : Event → Bool
  | .build _ none | .buildFails => true
  | _ => false

/-- `conflux_predict_new` has still work to do, and a launch that ends is a success. -/
def succeeds (p : Params) (w : Client) : Call → Bool
  | .predictNew => false
  | .pool e =>
      (w.sets ≠ 0 || w.current.isSome) && !e.fails &&
        (w.state.step p e).all fun t => w.state.stack = [] || t.stack ≠ [] || Client.launched w.state

def Frame.closes : Frame → Bool
  | .markForClose _ | .markAllForClose _ | .markLinkedForClose _ | .afterClose .. => true
  | _ => false

/-! ## Nonces that enter the pools -/

section Pooled
variable {p : Params} {d d' : Pools} {stack stack' : List Frame} {e : Event} {n : Nonce}

theorem rebuild_pooled {c : CircId} {id : CfxId} {m : Nonce} (rebuilt : d.rebuild c n id = .ok d')
    (pooled : d'.Pooled m) : d.Pooled m ∨ m = n := by
  by_cases here : m = n
  · exact .inr here
  · refine .inl ?_
    rcases rebuild_inv rebuilt with ⟨u, -, -, rfl⟩ | ⟨d₁, u, created, -, rfl⟩
    · exact pooled
    · have linked := (getOrCreate_frame d n).2.1
      have unlinked := getOrCreate_unlinked d here
      simp only [created] at linked unlinked
      simpa [Pools.Pooled, Pools.modifyCirc, Pools.setCfx, Pools.setUnlinked, here, linked, unlinked] using pooled

theorem Move.pooled (move : Move p d stack e d' stack') (filed : Filed d stack) {m : Nonce}
    (pooled : d'.Pooled m) :
    d.Pooled m ∨ stack.head? = some (.launchLeg m) ∨ ∃ c, stack.head? = some (.afterClose c m) := by
  cases move with
  | launchSet | add | close | closeSet | flags | skip | markAll | spare | teardown | settle | refill |
    oom | buildFails | built | forget | setPurpose => exact .inl pooled
  | repurpose isOpen closes => exact .inl (closes.pooled filed pooled)
  | mark alive closes => exact .inl (closes.pooled (modifyCirc_filed filed (by simp)) pooled)
  | answer pending found => exact .inl (setUnlinked_pooled found pooled)
  | @finalize c _ _ n u x pending found isLeg live =>
      have nonce := (filed.unlinked n u found).2 x live
      refine .inl (finalizeSet_pooled pooled ?_)
      rw [nonce, found]
      rfl
  | free marked frees => exact .inl (frees.shrinks.pooled pooled)
  | deleteEmpty => exact .inl (deleteSet_pooled pooled)
  | @rebuild c n full rest id x _ unlinked holds live rebuilt =>
      rcases rebuild_pooled rebuilt pooled with was | rfl
      · exact .inl was
      · exact .inr (.inr ⟨c, rfl⟩)
  | @refuse n _ _ _ _ u x unborn created =>
      have entered := getOrCreate_pooled (d := d) (n := n) (m := m)
      simp only [created] at entered
      rcases entered pooled with was | rfl
      · exact .inl was
      · exact .inr (.inl rfl)
  | @launch n c path rest frames d₁ u x _ unborn created =>
      have entered := getOrCreate_pooled (d := d) (n := n) (m := m)
      simp only [created] at entered
      rcases entered pooled with was | rfl
      · exact .inl was
      · exact .inr (.inl rfl)
  | register alive found => exact .inl (setUnlinked_pooled found pooled)

theorem getOrCreate_nonces (d : Pools) (n : Nonce) : ∀ m ∈ d.nonces, m ∈ (d.unlinkedGetOrCreate n).1.nonces := by
  intro m mem
  unfold Pools.unlinkedGetOrCreate
  split
  · exact mem
  · exact .tail _ mem

theorem getOrCreate_known (keyed : ∀ m, d.Pooled m → m ∈ d.nonces) (n : Nonce) :
    n ∈ (d.unlinkedGetOrCreate n).1.nonces := by
  unfold Pools.unlinkedGetOrCreate
  split
  · rename_i u found
    exact keyed n (.inr (by rw [found]; rfl))
  · exact .head _

theorem deleteSet_nonces (d : Pools) (n : Nonce) (u : Unlinked) : (d.deleteSet n u).nonces = d.nonces := by
  unfold Pools.deleteSet
  split <;> rfl

theorem rebuild_nonces {c : CircId} {id : CfxId} (rebuilt : d.rebuild c n id = .ok d') :
    (∀ m ∈ d.nonces, m ∈ d'.nonces) ∧ ((∀ m, d.Pooled m → m ∈ d.nonces) → n ∈ d'.nonces) := by
  rcases rebuild_inv rebuilt with ⟨u, found, -, rfl⟩ | ⟨d₁, u, created, -, rfl⟩
  · exact ⟨fun m mem => mem, fun keyed => keyed n (.inr (by rw [found]; rfl))⟩
  · have older := getOrCreate_nonces d n
    have known := getOrCreate_known (d := d) (n := n)
    simp only [created] at older known
    exact ⟨older, known⟩

theorem Move.keyed (move : Move p d stack e d' stack') (filed : Filed d stack)
    (keyed : ∀ m, d.Pooled m → m ∈ d.nonces) :
    (∀ m ∈ d.nonces, m ∈ d'.nonces) ∧ ∀ m, d'.Pooled m → m ∈ d'.nonces := by
  have kept (nonces : d'.nonces = d.nonces) (enters : ∀ m, d'.Pooled m → d.Pooled m) :
      (∀ m ∈ d.nonces, m ∈ d'.nonces) ∧ ∀ m, d'.Pooled m → m ∈ d'.nonces := by
    rw [nonces]
    exact ⟨fun m mem => mem, fun m pooled => keyed m (enters m pooled)⟩
  have grown (n : Nonce) (older : ∀ m ∈ d.nonces, m ∈ d'.nonces) (known : n ∈ d'.nonces)
      (enters : ∀ m, d'.Pooled m → d.Pooled m ∨ m = n) :
      (∀ m ∈ d.nonces, m ∈ d'.nonces) ∧ ∀ m, d'.Pooled m → m ∈ d'.nonces := by
    refine ⟨older, fun m pooled => ?_⟩
    rcases enters m pooled with was | rfl
    · exact older m (keyed m was)
    · exact known
  cases move with
  | launchSet | add | close | closeSet | flags | skip | markAll | spare | teardown | settle | refill |
    oom | buildFails | built | forget | setPurpose => exact kept rfl fun _ pooled => pooled
  | repurpose isOpen closes => exact kept closes.untouched.2.2.1 fun _ => closes.pooled filed
  | mark alive closes =>
      exact kept closes.untouched.2.2.1 fun _ => closes.pooled (modifyCirc_filed filed (by simp))
  | answer pending found => exact kept rfl fun _ => setUnlinked_pooled found
  | @finalize c _ _ n u x pending found isLeg live =>
      have nonce := (filed.unlinked n u found).2 x live
      refine kept rfl fun m pooled => finalizeSet_pooled pooled ?_
      rw [nonce, found]
      rfl
  | free marked frees =>
      refine kept ?_ fun _ => frees.shrinks.pooled
      cases frees <;> rfl
  | deleteEmpty => exact kept (deleteSet_nonces ..) fun _ => deleteSet_pooled
  | rebuild unlinked holds live rebuilt =>
      obtain ⟨older, known⟩ := rebuild_nonces rebuilt
      exact grown _ older (known keyed) fun _ => rebuild_pooled rebuilt
  | @refuse n _ _ _ _ u x unborn created | @launch n _ _ _ _ d₁ u x _ unborn created =>
      have older := getOrCreate_nonces d n
      have known := getOrCreate_known keyed n
      have enters (m : Nonce) := getOrCreate_pooled (d := d) (n := n) (m := m)
      simp only [created] at older known enters
      exact grown n older known enters
  | register alive found => exact kept rfl fun _ => setUnlinked_pooled found

theorem getOrCreate_stays {m : Nonce} (pooled : d.Pooled m) : (d.unlinkedGetOrCreate n).1.Pooled m := by
  rcases pooled with linked | unlinked
  · exact .inl (by rwa [(getOrCreate_frame d n).2.1])
  · by_cases here : m = n
    · exact .inr (by rw [here, getOrCreate_found]; rfl)
    · exact .inr (by rwa [getOrCreate_unlinked d here])

theorem register_pooled {c : CircId} {u : Unlinked} {m : Nonce} (pooled : d.Pooled m) :
    (d.register c n u).Pooled m := by
  refine pooled.imp_right fun unlinked => ?_
  simp only [Pools.register, Pools.setUnlinked, Function.update_apply]
  split
  · rfl
  · exact unlinked

theorem Move.stays {frame : Frame} {rest : List Frame} (move : Move p d (frame :: rest) e d' stack')
    (launches : frame.closes = false) {m : Nonce} (pooled : d.Pooled m) : d'.Pooled m := by
  cases move with
  | skip | mark | markAll | deleteEmpty | spare | teardown | settle | refill | rebuild => cases launches
  | @refuse n _ _ _ _ u x unborn created | @launch n _ _ _ _ d₁ u x _ unborn created =>
      have stays := getOrCreate_stays (n := n) pooled
      simp only [created] at stays
      exact stays
  | oom | buildFails | built | forget | setPurpose => exact pooled
  | register => exact register_pooled pooled

end Pooled

/-! ## Closing circuits while memory is short -/

section Closing
variable {p : Params} {s t : State} {e : Event} {frame : Frame} {rest : List Frame}

theorem Closes.leaves_closing {d d' : Pools} {c : CircId} {full : Bool} {frames : List Frame}
    (closes : Closes d c full d' frames) (short : d.mayLaunch = false) : ∀ f ∈ frames, f.closes = true := by
  intro f mem
  rcases closes.leaves with rfl | ⟨n, u, rfl, may, -⟩ | ⟨id, x, -, -, rfl | rfl⟩
  · cases mem
  · rw [short] at may
    cases may
  · obtain rfl := List.mem_singleton.mp mem
    rfl
  · rcases List.mem_cons.mp mem with rfl | last
    · rfl
    · obtain rfl := List.mem_singleton.mp last
      rfl

theorem Move.closing {d d' : Pools} {after : List Frame}
    (move : Move p d (frame :: rest) e d' after) (closing : frame.closes = true)
    (last : ∀ c n, frame ≠ .afterClose c n) (short : d.mayLaunch = false) :
    d'.mayLaunch = false ∧ ∃ frames, (∀ f ∈ frames, f.closes = true) ∧ after = frames ++ rest := by
  cases move with
  | skip => exact ⟨short, [], by simp, rfl⟩
  | spare => exact ⟨short, [], by simp, rfl⟩
  | @mark c _ _ frames _ alive closes =>
      have marked : (d.mark c).mayLaunch = false := short
      exact ⟨closes.untouched.2.2.2.trans marked, frames, closes.leaves_closing marked, rfl⟩
  | @markAll n =>
      refine ⟨short, ((d.unlinked n).elim [] Unlinked.circs).map .markForClose ++ [.markLinkedForClose n],
        fun f mem => ?_, by simp⟩
      rcases List.mem_append.mp mem with marks | last
      · obtain ⟨c, -, rfl⟩ := List.mem_map.mp marks
        rfl
      · obtain rfl := List.mem_singleton.mp last
        rfl
  | @deleteEmpty n _ _ u x =>
      refine ⟨?_, [.markLinkedForClose n], by simp [Frame.closes], rfl⟩
      unfold Pools.deleteSet
      split <;> exact short
  | @teardown n _ _ id x =>
      refine ⟨short, x.legs.map .markForClose, fun f mem => ?_, rfl⟩
      obtain ⟨c, -, rfl⟩ := List.mem_map.mp mem
      rfl
  | settle | refill | rebuild => exact absurd rfl (last _ _)
  | launch | refuse | oom | buildFails | built | forget | register | setPurpose => cases closing

theorem step_closing (client : s.pools.side = .client) (running : s.phase = .running)
    (filed : Filed s.pools s.stack) (top : s.stack = frame :: rest) (closing : frame.closes = true)
    (short : s.pools.mayLaunch = false) (h : s.step p e = some t) :
    (t.pools.mayLaunch = false ∧ ∃ frames, (∀ f ∈ frames, f.closes = true) ∧ t.stack = frames ++ rest) ∧
      ∀ m, t.pools.Pooled m → s.pools.Pooled m := by
  by_cases last : ∃ c n, frame = .afterClose c n
  · obtain ⟨c, n, rfl⟩ := last
    simp only [State.step, top, Option.ite_none_left_eq_some] at h
    obtain ⟨-, h⟩ := h
    cases e with
    | run full =>
        simp only [State.continueWith, Pools.afterClose, short, Option.some.injEq] at h
        obtain rfl := h
        exact ⟨⟨short, [], by simp, rfl⟩, fun m pooled => pooled⟩
    | _ => cases h
  · rcases step_moves client running h with (⟨fault, rfl⟩ | ⟨-, -, move⟩) | ⟨idle, rfl⟩
    · exact ⟨⟨short, [frame], by simpa using closing, top⟩, fun m pooled => pooled⟩
    · have enters (m : Nonce) (pooled : t.pools.Pooled m) := move.pooled filed pooled
      rw [top] at move enters
      refine ⟨move.closing closing (fun c n here => last ⟨c, n, here⟩) short, fun m pooled => ?_⟩
      rcases enters m pooled with was | isLaunch | ⟨c, isClose⟩
      · exact was
      · obtain rfl := Option.some.inj isLaunch
        cases closing
      · exact absurd ⟨c, m, Option.some.inj isClose⟩ last
    · rw [idle] at top
      cases top

end Closing

/-! ## One step of a refill -/

/-- What is left to do inside `conflux_predict_new`: a launch, and circuits that the OOM handler closes
meanwhile. -/
inductive Inside (d : Pools) : List Frame → Prop
  | idle : Inside d []
  | launch (n : Nonce) : Inside d [.launchLeg n]
  | establish (closing : List Frame) {n : Nonce} {set : Nat} {c : CircId}
      (closes : ∀ f ∈ closing, f.closes = true) (short : closing = [] ∨ d.mayLaunch = false) :
      Inside d (closing ++ [.establish n set c])
  | add {n : Nonce} {set : Nat} {c : CircId} : Inside d [.addLeg n set c]

section Inside
variable {p : Params} {d d' : Pools} {s t : State} {e : Event} {stack stack' : List Frame} {n m : Nonce}

theorem Move.launch_pooled {rest : List Frame} (move : Move p d (.launchLeg n :: rest) e d' stack') :
    d'.Pooled n := by
  cases move with
  | @refuse _ _ _ _ _ u x unborn created | @launch _ _ _ _ _ d₁ u x _ unborn created =>
      have found := getOrCreate_found d n
      simp only [created] at found
      refine .inr ?_
      first
        | rw [found]; rfl
        | exact found ▸ rfl

theorem Move.inside {frame : Frame} (move : Move p d [frame] e d' stack') (launches : frame.closes = false)
    (kind : ∀ c, frame ≠ .setPurpose c) (success : e.fails = false) :
    Inside d' stack' ∧ ∀ n, stack' ≠ [.launchLeg n] := by
  cases move with
  | refuse => exact ⟨.idle, by simp⟩
  | launch unborn created live allowed lookup next =>
      rcases next with ⟨rfl, -⟩ | ⟨chosen, -, -, rfl⟩
      · cases success
      · exact ⟨.establish [] (by simp) (.inl rfl), by simp⟩
  | oom => exact ⟨.establish [_] (by simp [Frame.closes]) (.inr (by simp [Pools.mayLaunch])), by simp⟩
  | buildFails => cases success
  | built => exact ⟨.add, by simp⟩
  | forget | register => exact ⟨.idle, by simp⟩
  | setPurpose => exact absurd rfl (kind _)
  | skip | mark | markAll | deleteEmpty | spare | teardown | settle | refill | rebuild => cases launches

theorem step_inside (client : s.pools.side = .client) (running : s.phase = .running)
    (filed : Filed s.pools s.stack) (inside : Inside s.pools s.stack) (busy : s.stack ≠ [])
    (success : e.fails = false) (h : s.step p e = some t) :
    Inside t.pools t.stack ∧ (∀ m, t.pools.Pooled m → s.pools.Pooled m ∨ s.stack = [.launchLeg m]) ∧
      ∀ m, t.stack = [.launchLeg m] → s.stack = [.launchLeg m] := by
  have single (frame : Frame) (only : s.stack = [frame]) (launches : frame.closes = false)
      (kind : ∀ c, frame ≠ .setPurpose c) :
      Inside t.pools t.stack ∧ (∀ m, t.pools.Pooled m → s.pools.Pooled m ∨ s.stack = [.launchLeg m]) ∧
        ∀ m, t.stack = [.launchLeg m] → s.stack = [.launchLeg m] := by
    rcases step_moves client running h with (⟨fault, rfl⟩ | ⟨-, -, move⟩) | ⟨idle, rfl⟩
    · exact ⟨inside, fun m pooled => .inl pooled, fun m same => same⟩
    · have enters (m : Nonce) (pooled : t.pools.Pooled m) := move.pooled filed pooled
      rw [only] at move enters
      obtain ⟨kept, other⟩ := move.inside launches kind success
      refine ⟨kept, fun m pooled => ?_, fun m same => absurd same (other m)⟩
      rw [only]
      rcases enters m pooled with was | isLaunch | ⟨c, isClose⟩
      · exact .inl was
      · exact .inr (by rw [Option.some.inj isLaunch])
      · obtain rfl := Option.some.inj isClose
        cases launches
    · exact absurd idle busy
  generalize stack : s.stack = frames at inside single
  cases inside with
  | idle => exact absurd stack busy
  | launch n => exact single _ rfl rfl (by simp)
  | add => exact single _ rfl rfl (by simp)
  | @establish closing n set c closes short =>
      cases closing with
      | nil => exact single _ rfl rfl (by simp)
      | cons f others =>
          have short := short.resolve_left (by simp)
          have top : s.stack = f :: (others ++ [.establish n set c]) := stack
          obtain ⟨⟨still, left, new, after⟩, enters⟩ :=
            step_closing client running filed top (closes f (.head _)) short h
          rw [after, ← List.append_assoc]
          refine ⟨.establish (left ++ others) (fun g mem => ?_) (.inr still), fun m pooled => .inl (enters m pooled),
            fun m same => ?_⟩
          · rcases List.mem_append.mp mem with isNew | old
            · exact new g isNew
            · exact closes g (.tail _ old)
          · have mem : Frame.establish n set c ∈ [Frame.launchLeg m] := by
              rw [← same]
              simp
            simp at mem

theorem Inside.single (inside : Inside d stack) (calm : ∀ f ∈ stack, f.closes = false) (busy : stack ≠ []) :
    ∃ frame, stack = [frame] ∧ ∀ c, frame ≠ .setPurpose c := by
  cases inside with
  | idle => exact absurd rfl busy
  | launch n => exact ⟨_, rfl, by simp⟩
  | add => exact ⟨_, rfl, by simp⟩
  | establish closing closes short =>
      cases closing with
      | nil => exact ⟨_, rfl, by simp⟩
      | cons f others =>
          have closing := closes f (.head _)
          rw [calm f (.head _)] at closing
          cases closing

theorem step_calm (client : s.pools.side = .client) (running : s.phase = .running)
    (inside : Inside s.pools s.stack) (calm : ∀ f ∈ s.stack, f.closes = false) (busy : s.stack ≠ [])
    (success : e.fails = false) (plenty : ∀ c, e ≠ .oom c) (h : s.step p e = some t) :
    (∀ f ∈ t.stack, f.closes = false) ∧
      ∀ m, s.pools.Pooled m ∨ s.stack = [.launchLeg m] → t.pools.Pooled m ∨ t.stack = [.launchLeg m] := by
  rcases step_moves client running h with (⟨fault, rfl⟩ | ⟨-, -, move⟩) | ⟨idle, rfl⟩
  · exact ⟨calm, fun m pooled => pooled⟩
  · obtain ⟨frame, only, kind⟩ := inside.single calm busy
    rw [only] at move calm
    have launches := calm frame (.head _)
    refine ⟨?_, fun m pooled => .inl ?_⟩
    · intro f mem
      generalize t.pools = d', t.stack = after at move mem
      cases move with
      | refuse | forget | register | setPurpose => cases mem
      | launch unborn created live allowed lookup next =>
          rcases next with ⟨rfl, -⟩ | ⟨chosen, -, -, rfl⟩
          · cases success
          · obtain rfl := List.mem_singleton.mp mem
            rfl
      | oom => exact absurd rfl (plenty _)
      | buildFails => cases success
      | built =>
          obtain rfl := List.mem_singleton.mp mem
          rfl
      | skip | mark | markAll | deleteEmpty | spare | teardown | settle | refill | rebuild => cases launches
    · rw [only] at pooled
      rcases pooled with pooled | here
      · exact move.stays launches pooled
      · obtain rfl : frame = .launchLeg m := by simpa using here
        exact move.launch_pooled
  · exact absurd idle busy

end Inside

/-! ## A whole refill -/

section Refill
variable {p : Params} {q : Targets} {w₀ w w' : Client} {done : List Event} {e : Event} {t : State}

theorem succeeds_call (success : succeeds p w (.pool e) = true) (h : w.call p e t = some w') :
    w'.state = t ∧ ((∃ n k, e = .launchSet n ∧ w'.sets + 1 = w.sets ∧ w'.current = some (n, k)) ∨
      ∃ n k k', e = .add n ∧ w.current = some (n, k) ∧ w'.current = some (n, k') ∧ w'.sets = w.sets) := by
  unfold Client.call at h
  split at h
  · rename_i n none
    split at h
    · rename_i more
      obtain rfl := Option.some.inj h
      exact ⟨rfl, .inl ⟨n, _, rfl, Nat.sub_add_cancel more, rfl⟩⟩
    · cases h
  · rename_i none other
    split at h
    · rename_i exceeds
      simp [succeeds, exceeds, none] at success
    · cases h
  · rename_i n legs m current
    split at h
    · rename_i guard
      obtain ⟨rfl, -⟩ := guard
      obtain rfl := Option.some.inj h
      exact ⟨rfl, .inr ⟨m, legs, _, rfl, current, rfl, rfl⟩⟩
    · cases h
  · cases h

theorem succeeds_goOn (success : succeeds p w (.pool e) = true) (busy : w.state.stack ≠ [])
    (h : w.state.step p e = some t) :
    (w.goOn t).state = t ∧ (w.goOn t).sets = w.sets ∧
      (∀ n k, (w.goOn t).current = some (n, k) → w.current = some (n, k)) ∧
      ((w.goOn t).current = none → w.current = none ∨ t.stack = []) := by
  simp only [succeeds, h, Option.all_some, Bool.and_eq_true, Bool.or_eq_true, decide_eq_true_eq] at success
  obtain ⟨-, ended⟩ := success
  unfold Client.goOn
  split
  · rename_i none
    exact ⟨rfl, rfl, fun n k same => same, fun _ => .inl none⟩
  · rename_i n legs current
    split_ifs with inside launched
    · exact ⟨rfl, rfl, fun n k same => same, fun same => .inl same⟩
    · rename_i last
      exact ⟨rfl, rfl, fun n k same => (by cases same), fun _ => .inr (not_not.mp inside)⟩
    · refine ⟨rfl, rfl, fun a k same => ?_, fun none => by cases none⟩
      rw [current]
      exact same
    · have isLaunched := (ended.resolve_left (fun idle => idle.elim busy (absurd · inside)))
      exact absurd isLaunched launched

/-- What holds in a refill that began at `w₀`, after the events `done`. -/
structure Refilling (w₀ : Client) (done : List Event) (w : Client) : Prop where
  client : w.state.pools.side = .client
  running : w.state.phase = .running
  filed : Filed w.state.pools w.state.stack
  keyed : ∀ n, w.state.pools.Pooled n → n ∈ w.state.pools.nonces
  inside : Inside w.state.pools w.state.stack
  count : (launchedSets done).length + w.sets = w₀.sets
  nodup : (launchedSets done).Nodup
  fresh : ∀ n ∈ launchedSets done, n ∉ w₀.state.pools.nonces
  older : ∀ n ∈ w₀.state.pools.nonces, n ∈ w.state.pools.nonces
  known : ∀ n ∈ launchedSets done, n ∈ w.state.pools.nonces ∨ w.state.stack = [.launchLeg n]
  within : ∀ n, w.state.pools.Pooled n → w₀.state.pools.Pooled n ∨ n ∈ launchedSets done
  launching : ∀ n, w.state.stack = [.launchLeg n] → n ∈ launchedSets done
  current : ∀ n k, w.current = some (n, k) → n ∈ launchedSets done
  returned : w.current = none → w.state.stack = []
  calm : (∀ c, .oom c ∉ done) → (∀ f ∈ w.state.stack, f.closes = false) ∧
    ∀ n, w₀.state.pools.Pooled n ∨ n ∈ launchedSets done →
      w.state.pools.Pooled n ∨ w.state.stack = [.launchLeg n]

theorem launchedSets_append (es : List Event) (e : Event) :
    launchedSets (es ++ [e]) = launchedSets es ++ launchedSets [e] := List.filterMap_append ..

theorem launchedSets_busy (busy : w.state.stack ≠ []) (stepped : w.state.step p e = some t) :
    launchedSets [e] = [] := by
  cases e with
  | launchSet n =>
      unfold State.step at stepped
      split at stepped
      · cases stepped
      · split at stepped
        · exact absurd (by assumption) busy
        · rename_i frame rest top
          cases frame <;> cases stepped
  | _ => rfl

theorem Refilling.run_code (h : Refilling w₀ done w) (success : succeeds p w (.pool e) = true)
    (busy : w.state.stack ≠ []) (stepped : w.state.step p e = some t) :
    Refilling w₀ (done ++ [e]) (w.goOn t) := by
  obtain ⟨state, sets, current, returned⟩ := succeeds_goOn success busy stepped
  have launched : launchedSets (done ++ [e]) = launchedSets done := by
    rw [launchedSets_append, launchedSets_busy busy stepped, List.append_nil]
  have sound : e.fails = false := by
    simp only [succeeds, Bool.and_eq_true, Bool.not_eq_true'] at success
    exact success.1.2
  obtain ⟨inside, enters, again⟩ := step_inside h.client h.running h.filed h.inside busy sound stepped
  obtain ⟨client, running, filed, older, keyed, entered⟩ : t.pools.side = .client ∧ t.phase = .running ∧
      Filed t.pools t.stack ∧ (∀ n ∈ w.state.pools.nonces, n ∈ t.pools.nonces) ∧
      (∀ n, t.pools.Pooled n → n ∈ t.pools.nonces) ∧
      ∀ n, w.state.stack = [.launchLeg n] → n ∈ t.pools.nonces ∨ t.stack = [.launchLeg n] := by
    rcases step_moves h.client h.running stepped with (⟨fault, rfl⟩ | ⟨phase, -, move⟩) | ⟨idle, rfl⟩
    · exact ⟨h.client, h.running, h.filed, fun n mem => mem, h.keyed, fun n here => .inr here⟩
    · obtain ⟨older, keyed⟩ := move.keyed h.filed h.keyed
      refine ⟨move.side.trans h.client, phase.trans h.running, move.filed h.filed, older, keyed, fun n here => ?_⟩
      rw [here] at move
      exact .inl (keyed n move.launch_pooled)
    · exact absurd idle busy
  constructor
  · rwa [state]
  · rwa [state]
  · rwa [state]
  · rwa [state]
  · rwa [state]
  · rw [launched, sets]
    exact h.count
  · rw [launched]
    exact h.nodup
  · rw [launched]
    exact h.fresh
  · rw [state]
    exact fun n mem => older n (h.older n mem)
  · rw [launched, state]
    intro n mem
    rcases h.known n mem with was | here
    · exact .inl (older n was)
    · exact entered n here
  · rw [launched, state]
    intro n pooled
    rcases enters n pooled with was | here
    · exact h.within n was
    · exact .inr (h.launching n here)
  · rw [launched, state]
    exact fun n here => h.launching n (again n here)
  · rw [launched]
    exact fun n k same => h.current n k (current n k same)
  · rw [state]
    intro none
    rcases returned none with was | done
    · exact absurd (h.returned was) busy
    · exact done
  · rw [launched, state]
    intro plenty
    obtain ⟨calm, kept⟩ := h.calm fun c mem => plenty c (List.mem_append_left _ mem)
    have noOom (c : CircId) : e ≠ .oom c := fun here => plenty c (by simp [here])
    obtain ⟨still, stays⟩ := step_calm h.client h.running h.inside calm busy sound noOom stepped
    exact ⟨still, fun n mem => stays n (kept n mem)⟩

theorem Refilling.call (h : Refilling w₀ done w) (success : succeeds p w (.pool e) = true)
    (idle : w.state.stack = []) (stepped : w.state.step p e = some t) (called : w.call p e t = some w') :
    Refilling w₀ (done ++ [e]) w' := by
  obtain ⟨state, next⟩ := succeeds_call success called
  obtain ⟨s, left, set⟩ := w'
  dsimp only at state next
  subst state
  have filed (n : Nonce) : Filed w.state.pools [.launchLeg n] := h.filed.fewer (by simp)
  simp only [State.step, idle, Option.ite_none_left_eq_some] at stepped
  obtain ⟨-, stepped⟩ := stepped
  rcases next with ⟨n, k, rfl, fewer, rfl⟩ | ⟨n, k, k', rfl, was, rfl, rfl⟩
  · simp only [State.call, Option.ite_none_right_eq_some, Option.some.injEq] at stepped
    obtain ⟨⟨-, -, unused⟩, rfl⟩ := stepped
    have launched : launchedSets (done ++ [.launchSet n]) = launchedSets done ++ [n] := launchedSets_append ..
    have isNew : n ∉ launchedSets done := fun mem => by
      rcases h.known n mem with old | here
      · exact unused old
      · rw [idle] at here
        cases here
    have older {m : Nonce} (mem : m ∈ launchedSets done) : m ∈ w.state.pools.nonces :=
      (h.known m mem).resolve_right (by simp [idle])
    exact {
      client := h.client
      running := h.running
      filed := filed n
      keyed := h.keyed
      inside := .launch n
      count := by
        have count := h.count
        rw [launched, List.length_append, List.length_singleton, Nat.add_right_comm, Nat.add_assoc, fewer]
        exact count
      nodup := by
        rw [launched]
        exact h.nodup.append (List.nodup_singleton n) (by simpa using isNew)
      fresh := by
        rw [launched]
        intro m mem old
        rcases List.mem_append.mp mem with was | here
        · exact h.fresh m was old
        · obtain rfl := List.mem_singleton.mp here
          exact unused (h.older m old)
      older := h.older
      known := by
        rw [launched]
        intro m mem
        rcases List.mem_append.mp mem with was | here
        · exact .inl (older was)
        · obtain rfl := List.mem_singleton.mp here
          exact .inr rfl
      within := by
        rw [launched]
        exact fun m pooled => (h.within m pooled).imp_right (List.mem_append_left _)
      launching := by
        intro m here
        obtain rfl : n = m := by simpa using here
        simp [launched]
      current := by
        intro m k here
        obtain ⟨rfl, -⟩ := Prod.mk.inj (Option.some.inj here)
        simp [launched]
      returned := fun none => by cases none
      calm := by
        rw [launched]
        intro plenty
        obtain ⟨-, kept⟩ := h.calm fun c mem => plenty c (List.mem_append_left _ mem)
        refine ⟨by simp [Frame.closes], fun m mem => ?_⟩
        by_cases here : m = n
        · exact .inr (by rw [here])
        · refine .inl ((kept m ?_).resolve_right (by simp [idle]))
          simpa [here] using mem }
  · simp only [State.call, Option.ite_none_right_eq_some, Option.some.injEq] at stepped
    obtain ⟨-, rfl⟩ := stepped
    have launched : launchedSets (done ++ [.add n]) = launchedSets done := by
      rw [launchedSets_append]
      exact List.append_nil _
    have isNew := h.current n k was
    exact {
      client := h.client
      running := h.running
      filed := filed n
      keyed := h.keyed
      inside := .launch n
      count := by rw [launched]; exact h.count
      nodup := by rw [launched]; exact h.nodup
      fresh := by rw [launched]; exact h.fresh
      older := h.older
      known := by
        rw [launched]
        exact fun m mem => .inl ((h.known m mem).resolve_right (by simp [idle]))
      within := by rw [launched]; exact h.within
      launching := by
        intro m here
        obtain rfl : n = m := by simpa using here
        rwa [launched]
      current := by
        intro m k here
        obtain ⟨rfl, -⟩ := Prod.mk.inj (Option.some.inj here)
        rwa [launched]
      returned := fun none => by cases none
      calm := by
        rw [launched]
        intro plenty
        obtain ⟨-, kept⟩ := h.calm fun c mem => plenty c (List.mem_append_left _ mem)
        exact ⟨by simp [Frame.closes], fun m mem => .inl ((kept m mem).resolve_right (by simp [idle]))⟩ }

theorem Refilling.run {es : List Event} (h : Refilling w₀ done w)
    (run : (Client.machine p q).run (fun w e => succeeds p w e = true) w (es.map .pool) = some w') :
    Refilling w₀ (done ++ es) w' := by
  induction es generalizing done w with
  | nil =>
      obtain rfl := Option.some.inj run
      rwa [List.append_nil]
  | cons e es ih =>
      simp only [List.map_cons, Machine.run] at run
      split at run
      · rename_i success
        obtain ⟨mid, action, run⟩ := Option.bind_eq_some_iff.mp run
        rw [List.append_cons]
        refine ih ?_ run
        simp only [Client.machine, Client.step] at action
        split at action
        · cases action
        · rename_i t stepped
          split at action
          · rename_i idle
            exact h.call success idle stepped action
          · rename_i busy
            obtain rfl := Option.some.inj action
            exact h.run_code success busy stepped
      · cases run

theorem Client.reach_state {allowed : Client → Call → Prop}
    (reach : (Client.machine p q).Reach allowed Client.initial w) :
    (State.machine p).Reach (fun _ _ => True) (State.initial .client) w.state := by
  induction reach with
  | refl => exact .refl
  | @next w w' e _ _ action ih =>
      cases e with
      | predictNew =>
          simp only [Client.machine, Client.step, Option.ite_none_right_eq_some, Option.some.injEq] at action
          obtain ⟨-, rfl⟩ := action
          unfold Client.predictNew
          dsimp only
          split_ifs <;> exact ih
      | pool e =>
          simp only [Client.machine, Client.step] at action
          split at action
          · cases action
          · rename_i t stepped
            have same : w'.state = t := by
              split at action
              · exact (Client.call_inv action).1
              · obtain rfl := Option.some.inj action
                exact (Client.goOn_inv w t).1
            rw [same]
            exact .next ih trivial stepped

end Refill

/-! ## The number of sets -/

section Count
variable {p : Params} {q : Targets} {w w' : Client} {es : List Event} {d : Pools}

def Pools.Apart (d : Pools) : Prop := ∀ n, ¬((d.linked n).isSome ∧ (d.unlinked n).isSome)

theorem numSets_add_both (d : Pools) :
    d.numSets + (d.nonces.toFinset.filter fun n => (d.linked n).isSome ∧ (d.unlinked n).isSome).card =
      d.numUnlinked + d.numLinked := by
  have union := Finset.card_union_add_card_inter (d.nonces.toFinset.filter fun n => (d.linked n).isSome)
    (d.nonces.toFinset.filter fun n => (d.unlinked n).isSome)
  rw [← Finset.filter_or, ← Finset.filter_and] at union
  unfold Pools.numSets Pools.sets Pools.numUnlinked Pools.numLinked
  omega

theorem numSets_le_sum (d : Pools) : d.numSets ≤ d.numUnlinked + d.numLinked := by
  have both := numSets_add_both d
  omega

theorem numSets_eq_sum_iff (keyed : ∀ n, d.Pooled n → n ∈ d.nonces) :
    d.numSets = d.numUnlinked + d.numLinked ↔ d.Apart := by
  have both := numSets_add_both d
  constructor
  · intro same n holds
    have empty : (d.nonces.toFinset.filter fun n => (d.linked n).isSome ∧ (d.unlinked n).isSome).card = 0 := by
      omega
    have none := Finset.card_eq_zero.mp empty
    have mem : n ∈ (∅ : Finset Nonce) := by
      rw [← none]
      simpa using ⟨keyed n (.inl holds.1), holds⟩
    simp at mem
  · intro apart
    have none : (d.nonces.toFinset.filter fun n => (d.linked n).isSome ∧ (d.unlinked n).isSome) = ∅ :=
      Finset.filter_false_of_mem fun n _ => apart n
    rw [none, Finset.card_empty] at both
    exact both

theorem client_keyed {s : State}
    (reach : (State.machine p).Reach (fun _ _ => True) (State.initial .client) s)
    (running : s.phase = .running) :
    s.pools.side = .client ∧ Filed s.pools s.stack ∧ ∀ n, s.pools.Pooled n → n ∈ s.pools.nonces := by
  have inv := client_invariant
    (I := fun d stack => Filed d stack ∧ ∀ n, d.Pooled n → n ∈ d.nonces) (J := fun _ => True) ?_ ?_
    (fun _ _ => trivial) (fun _ _ _ _ => trivial) reach
  · rcases inv with ⟨client, ⟨-, filed, keyed⟩ | ⟨exiting, -⟩⟩
    · exact ⟨client, filed, keyed⟩
    · exact absurd running exiting
  · exact ⟨⟨by simp [State.initial], by simp [State.initial], by simp [State.initial, Circ.plain], by simp⟩,
      fun n pooled => by simp [Pools.Pooled, State.initial] at pooled⟩
  · intro s e d' stack' _ inv _ move
    exact ⟨move.filed inv.1, (move.keyed inv.1 inv.2).2⟩

theorem mem_sets (keyed : ∀ n, d.Pooled n → n ∈ d.nonces) {n : Nonce} : n ∈ d.sets ↔ d.Pooled n := by
  simp only [Pools.sets, Finset.mem_filter, List.mem_toFinset]
  exact ⟨fun both => both.2, fun pooled => ⟨keyed n pooled, pooled⟩⟩

theorem Refilling.numSets (h : Refilling w es w') (sets : w'.sets = 0)
    (keyed : ∀ n, w.state.pools.Pooled n → n ∈ w.state.pools.nonces) :
    w'.state.pools.numSets ≤ w.state.pools.numSets + w.sets ∧
      (w'.state.pools.numSets = w.state.pools.numSets + w.sets ↔
        ∀ n, w.state.pools.Pooled n ∨ n ∈ launchedSets es → w'.state.pools.Pooled n) := by
  have isNew : Disjoint w.state.pools.sets (launchedSets es).toFinset := by
    refine Finset.disjoint_left.mpr fun n old launched => ?_
    exact h.fresh n (List.mem_toFinset.mp launched) (keyed n ((mem_sets keyed).mp old))
  have total : (w.state.pools.sets ∪ (launchedSets es).toFinset).card = w.state.pools.numSets + w.sets := by
    have count := h.count
    rw [sets, Nat.add_zero] at count
    rw [Finset.card_union_of_disjoint isNew, List.toFinset_card_of_nodup h.nodup, count]
    rfl
  have within : w'.state.pools.sets ⊆ w.state.pools.sets ∪ (launchedSets es).toFinset := by
    intro n mem
    rw [Finset.mem_union, mem_sets keyed, List.mem_toFinset]
    exact h.within n ((mem_sets h.keyed).mp mem)
  refine ⟨total ▸ Finset.card_le_card within, fun same n known => ?_, fun kept => ?_⟩
  · have full := Finset.eq_of_subset_of_card_le within (total.trans same.symm).le
    rw [← mem_sets h.keyed, full, Finset.mem_union, mem_sets keyed, List.mem_toFinset]
    exact known
  · rw [← total]
    refine congrArg Finset.card (within.antisymm fun n mem => ?_)
    rw [Finset.mem_union, mem_sets keyed, List.mem_toFinset] at mem
    exact (mem_sets h.keyed).mpr (kept n mem)

end Count

/-- `conflux_predict_new` may be called. -/
def Client.Ready (w : Client) : Prop :=
  w.state.stack = [] ∧ w.state.phase = .running ∧ w.state.fault = none ∧ w.sets = 0 ∧ w.current = none

def Client.Counted (p : Params) (q : Targets) (w : Client) : Prop :=
  w.state.pools.numSets = q.maxPrebuilt ∨
    p.numLegsSet ≠ 0 ∧ w.state.pools.Apart ∧
      w.state.pools.numUnlinked + w.state.pools.numLinked ≤ q.maxPrebuilt

/-- A refill that is not stopped by the cap, and whose launches succeed, leaves as many sets as are
configured if and only if none was in both pools and none is closed meanwhile. Only the OOM handler
could close one. -/
theorem refill_exact {p : Params} {q : Targets} {w w' : Client} {es : List Event}
    (reach : (Client.machine p q).Reach (fun _ _ => True) Client.initial w) (ready : w.Ready)
    (below : w.state.pools.numLinked < q.maxLinkedSet)
    (run : (Client.machine p q).run (fun w e => succeeds p w e = true) (w.predictNew p q) (es.map .pool) = some w')
    (returned : w'.sets = 0 ∧ w'.current = none) :
    (w'.state.pools.numSets = q.maxPrebuilt ↔ w.Counted p q ∧
      ∀ n, w.state.pools.Pooled n ∨ n ∈ launchedSets es → w'.state.pools.Pooled n) ∧
    ((∀ c, .oom c ∉ es) →
      ∀ n, w.state.pools.Pooled n ∨ n ∈ launchedSets es → w'.state.pools.Pooled n) := by
  obtain ⟨idle, running, -, noSets, noSet⟩ := ready
  obtain ⟨client, filed, keyed⟩ := client_keyed (Client.reach_state reach) running
  have le := numSets_le_sum w.state.pools
  have whole := numSets_eq_sum_iff keyed
  have state : (w.predictNew p q).state = w.state := by
    unfold Client.predictNew
    dsimp only
    split_ifs <;> rfl
  have began : Refilling (w.predictNew p q) [] (w.predictNew p q) := by
    have current : (w.predictNew p q).current = none := by
      unfold Client.predictNew
      dsimp only
      split_ifs <;> exact noSet
    constructor
    all_goals simp [launchedSets, state, current, idle, client, running, Inside.idle]
    · rwa [idle] at filed
    · exact keyed
  have refilled := began.run run
  obtain ⟨most, exact⟩ := refilled.numSets returned.1 (by rwa [state])
  rw [List.nil_append] at refilled exact
  rw [state] at most exact
  constructor
  · by_cases refills : w.state.pools.numUnlinked + w.state.pools.numLinked < q.maxPrebuilt ∧ p.numLegsSet ≠ 0
    · obtain ⟨room, legs⟩ := refills
      have sets : (w.predictNew p q).sets =
          q.maxPrebuilt - (w.state.pools.numUnlinked + w.state.pools.numLinked) := by
        simp [Client.predictNew, below.not_ge, room.not_ge, legs]
      rw [sets] at most exact
      constructor
      · intro all
        exact ⟨.inr ⟨legs, whole.mp (by omega), room.le⟩, exact.mp (by omega)⟩
      · rintro ⟨full | ⟨-, apart, -⟩, kept⟩
        · omega
        · have same := exact.mpr kept
          have sum := whole.mpr apart
          omega
    · -- nothing is launched
      have unchanged : w.predictNew p q = w := by
        unfold Client.predictNew
        dsimp only
        split_ifs with capped full none
        · rfl
        · rfl
        · rfl
        · exact absurd ⟨not_le.mp full, none⟩ refills
      have nothing : w' = w ∧ es = [] := by
        rw [unchanged] at run
        cases es with
        | nil => exact ⟨(Option.some.inj run).symm, rfl⟩
        | cons e es => simp [Machine.run, succeeds, noSets, noSet] at run
      obtain ⟨rfl, rfl⟩ := nothing
      constructor
      · exact fun full => ⟨.inl full, by simp [launchedSets]⟩
      · rintro ⟨full | ⟨legs, apart, within⟩, -⟩
        · exact full
        · have sum := whole.mpr apart
          have reached : q.maxPrebuilt ≤ w'.state.pools.numUnlinked + w'.state.pools.numLinked :=
            not_lt.mp fun room => refills ⟨room, legs⟩
          omega
  · intro plenty n known
    have kept := (refilled.calm plenty).2 n (by rwa [state])
    refine kept.resolve_right ?_
    simp [refilled.returned returned.2]

/-- Empty pools are filled with two sets. -/
theorem empty_pools_refilled : ∃ w', (Client.machine .consensus ⟨2, 2⟩).Reach
    (fun w e => succeeds .consensus w e = true) (Client.initial.predictNew .consensus ⟨2, 2⟩) w' ∧
      w'.state.pools.numSets = 2 := by
  let es : List Event := [.launchSet 7, .build 1 (some ⟨9, 1, 2⟩), .built, .run false,
    .add 7, .build 2 (some ⟨9, 3, 4⟩), .built, .run false,
    .launchSet 8, .build 3 (some ⟨9, 5, 6⟩), .built, .run false,
    .add 8, .build 4 (some ⟨9, 7, 8⟩), .built, .run false]
  have returns : ((Client.machine .consensus ⟨2, 2⟩).run (fun w e => succeeds .consensus w e = true)
      (Client.initial.predictNew .consensus ⟨2, 2⟩) (es.map .pool)).any
        (fun w => decide (w.sets = 0 ∧ w.current = none)) = true := by decide
  obtain ⟨w', run, returned⟩ := (Option.any_eq_true _ _).mp returns
  have counted : Client.initial.Counted .consensus ⟨2, 2⟩ :=
    .inr ⟨by decide, fun n both => by simp [Client.initial, State.initial] at both, by decide⟩
  obtain ⟨exact, kept⟩ := refill_exact .refl ⟨rfl, rfl, rfl, rfl, rfl⟩ (by decide) run (of_decide_eq_true returned)
  exact ⟨w', Machine.run_reach run, exact.mpr ⟨counted, kept (by simp [es])⟩⟩

/-- A client that keeps three sets has one, which is about to replace a leg: the refill takes it for two
sets and launches one more. -/
theorem refill_counts_twice : ¬ ∀ (p : Params) (q : Targets) (w w' : Client) (es : List Event),
    (Client.machine p q).Reach (fun _ _ => True) Client.initial w → w.Ready →
    w.state.pools.numLinked < q.maxLinkedSet →
    (Client.machine p q).run (fun w e => succeeds p w e = true) (w.predictNew p q) (es.map .pool) = some w' →
    w'.sets = 0 ∧ w'.current = none → w'.state.pools.numSets = q.maxPrebuilt := by
  intro claim
  let before : List Call := .predictNew :: [.launchSet 7, .build 1 (some ⟨9, 1, 2⟩), .built, .run false,
    .add 7, .build 2 (some ⟨9, 3, 4⟩), .built, .run false,
    .launchSet 8, .build 3 (some ⟨9, 5, 6⟩), .buildFails, .run false, .run false,
    .recvLinked 1 true true, .recvLinked 2 true true,
    .close 1, .run false, .run false, .build 4 (some ⟨9, 7, 8⟩), .built, .run false].map .pool
  let es : List Event := [.launchSet 10, .build 5 (some ⟨9, 1, 2⟩), .built, .run false,
    .add 10, .build 6 (some ⟨9, 3, 4⟩), .built, .run false]
  obtain ⟨w, reach, ready, below, returns⟩ := Machine.exists_of_run (Client.machine .consensus ⟨3, 3⟩)
    (fun _ _ => True) Client.initial
    (P := fun w => (w.state.stack = [] ∧ w.state.phase = .running ∧ w.state.fault = none ∧ w.sets = 0 ∧
        w.current = none) ∧ w.state.pools.numLinked < 3 ∧
      ((Client.machine .consensus ⟨3, 3⟩).run (fun w e => succeeds .consensus w e = true)
        (w.predictNew .consensus ⟨3, 3⟩) (es.map .pool)).any
          (fun w => decide ((w.sets = 0 ∧ w.current = none) ∧ w.state.pools.numSets = 2)) = true)
    before (by decide)
  obtain ⟨w', run, ended⟩ := (Option.any_eq_true _ _).mp returns
  obtain ⟨returned, two⟩ := of_decide_eq_true ended
  have three := claim .consensus ⟨3, 3⟩ w w' es reach ready below run returned
  rw [two] at three
  cases three

end TorJet.Pool
