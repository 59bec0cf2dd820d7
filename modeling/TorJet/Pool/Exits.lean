import TorJet.Pool.Legs

/-!
# The exit of a nonce

The legs of a nonce end at one exit as long as each leg that is launched finds another one to copy it from. Rebuilding a
set that has lost its last leg finds none.
-/

namespace TorJet.Pool
open Smartlist Base

def keepsExit (s : State) : Bool :=
  match s.stack with
  | .afterClose c n :: _ => (s.pools.circs c).conflux.isNone || (s.pools.circs c).marked && !s.pools.rebuilds c n
  | _ => true

def Pools.HasLeg (d : Pools) (n : Nonce) : Prop := (d.linked n).isSome ∨ ∃ u, d.unlinked n = some u ∧ u.legs ≠ []

structure SameExit (d : Pools) (stack : List Frame) : Prop where
  same : ∀ n a b path path', (d.circs a).origin = (some n, some path) → (d.circs b).origin = (some n, some path') →
    path.exit = path'.exit
  legs : ∀ n a, IsLeg d stack n a → (d.circs a).launchedFor = some n
  known : ∀ c n, (d.circs c).launchedFor = some n → n ∈ d.nonces
  top : ∀ n, stack.head? = some (.launchLeg n) → d.HasLeg n ∨ ∀ c, (d.circs c).launchedFor ≠ some n

section SameExit
variable {p : Params} {d d' : Pools} {stack stack' rest frames : List Frame} {c : CircId} {n : Nonce} {e : Event}
  {full : Bool} {u : Unlinked} {x : Cfx} {id : CfxId}

theorem SameExit.mono (h : SameExit d stack) (circs : ∀ a, (d'.circs a).origin = (d.circs a).origin)
    (legs : ∀ m a, IsLeg d' stack' m a → IsLeg d stack m a) (nonces : ∀ m ∈ d.nonces, m ∈ d'.nonces)
    (top : ∀ m, stack'.head? = some (.launchLeg m) → d'.HasLeg m ∨ ∀ c, (d.circs c).launchedFor ≠ some m) :
    SameExit d' stack' := by
  have launchedFor (a : CircId) : (d'.circs a).launchedFor = (d.circs a).launchedFor := congrArg Prod.fst (circs a)
  refine ⟨fun m a b path path' first second => ?_, fun m a leg => ?_, fun a m launched => ?_, fun m head => ?_⟩
  · rw [circs] at first second
    exact h.same m a b path path' first second
  · rw [launchedFor]
    exact h.legs m a (legs m a leg)
  · rw [launchedFor] at launched
    exact nonces m (h.known a m launched)
  · rcases top m head with hasLeg | fresh
    · exact .inl hasLeg
    · exact .inr fun a => by rw [launchedFor]; exact fresh a

theorem Sound.hasLeg (h : Sound d []) (isOpen : d.isOpen c = true) (nonce : d.getNonce c = some n) : d.HasLeg n := by
  have alive := isOpen_alive isOpen
  unfold Pools.getNonce at nonce
  split at nonce
  · rename_i id holds
    obtain ⟨x, live, rfl⟩ := Option.map_eq_some_iff.mp nonce
    have legs : x.legs ≠ [] := fun empty => by
      have closing := h.stale c id x holds live empty alive
      cases closing
    exact .inl (by rw [h.neat.inPool id x live legs]; rfl)
  · rcases h.waiting c n nonce alive with ⟨u, found, isLeg⟩ | ⟨set, flies⟩
    · refine .inr ⟨u, found, fun empty => ?_⟩
      rw [Unlinked.circs, empty] at isLeg
      cases isLeg
    · exact absurd flies not_inFlight_nil

theorem Neat.keyed (neat : Neat d) (pooled : d.Pooled n) : n ∈ d.nonces := by
  rcases pooled with linked | unlinked
  · obtain ⟨id, found⟩ := Option.isSome_iff_exists.mp linked
    obtain ⟨x, live, rfl, -⟩ := neat.owned.linked n id found
    exact neat.keys id x live
  · obtain ⟨u, found⟩ := Option.isSome_iff_exists.mp unlinked
    obtain ⟨x, live, rfl, -⟩ := neat.owned.unlinked n u found
    exact neat.keys u.cfx x live

theorem SameExit.copied (h : SameExit d stack) (sound : Owned d) (hasLeg : d.HasLeg n) {exit : Option RelayId}
    (lookup : d.getExitForNonce n = .ok exit) :
    ∃ a path, (d.circs a).origin = (some n, some path) ∧ exit = some path.exit := by
  have found {a : CircId} (launched : (d.circs a).launchedFor = some n)
      (ok : Pools.getExitForNonce.exitOf d a = .ok exit) :
      ∃ a path, (d.circs a).origin = (some n, some path) ∧ exit = some path.exit := by
    unfold Pools.getExitForNonce.exitOf at ok
    split at ok
    · cases ok
    · rename_i path isPath
      exact ⟨a, path, Prod.ext launched isPath, (Except.ok.inj ok).symm⟩
  unfold Pools.getExitForNonce at lookup
  split at lookup
  · rename_i id linked
    obtain ⟨x, live, nonce, legs⟩ := sound.linked n id linked
    rw [getCfx_ok live] at lookup
    obtain ⟨c, cs, first⟩ := List.exists_cons_of_ne_nil legs
    dsimp only [bind, Except.bind] at lookup
    rw [first] at lookup
    exact found (h.legs n c (nonce ▸ .linked live (by rw [first]; exact .head _))) lookup
  · rename_i absent
    obtain ⟨u, isUnlinked, legs⟩ := hasLeg.resolve_left (by rw [absent]; exact Bool.false_ne_true)
    rw [isUnlinked] at lookup
    dsimp only at lookup
    split at lookup
    · exact absurd ‹_› legs
    · rename_i leg _ first
      exact found (h.legs n leg.circ (.unlinked isUnlinked (by rw [Unlinked.circs, first]; exact .head _))) lookup

theorem head_quiet (plain : ∀ f ∈ frames, ∀ m, f ≠ .launchLeg m) (quiet : ∀ m, rest.head? ≠ some (.launchLeg m)) (m : Nonce) :
    (frames ++ rest).head? ≠ some (.launchLeg m) := by
  cases frames with
  | nil => exact quiet m
  | cons f frames => exact fun head => plain f (.head _) m (Option.some.inj head)

theorem Closes.hasLeg (closes : Closes d c full d' frames) (quiet : ∀ m, rest.head? ≠ some (.launchLeg m)) {m : Nonce}
    (head : (frames ++ rest).head? = some (.launchLeg m)) : d'.HasLeg m := by
  cases closes with
  | nothing => exact absurd head (quiet m)
  | @dropLeg n u pending found more =>
      by_cases launches : d.mayLaunch = true
      · rw [if_pos launches] at head
        obtain rfl : n = m := by simpa using head
        exact .inr ⟨_, Function.update_self .., more⟩
      · rw [if_neg launches] at head
        exact absurd head (quiet m)
  | dropSet => exact absurd head (quiet m)
  | detach _ _ _ _ next => rcases next with rfl | rfl <;> simp at head
  | handOver _ _ _ _ _ _ next => rcases next with rfl | rfl <;> simp at head
  | keep _ _ _ _ _ next => rcases next with rfl | rfl <;> simp at head

theorem getOrCreate_sameExit (h : SameExit d (.launchLeg n :: rest)) : SameExit (d.unlinkedGetOrCreate n).1 (.launchLeg n :: rest) := by
  obtain ⟨circs, linked, -, -⟩ := getOrCreate_frame d n
  refine h.mono (fun a => by rw [circs]) (fun m a leg => getOrCreate_isLeg leg) (getOrCreate_nonces d n) fun m head => ?_
  rcases h.top m head with (inPool | ⟨u, found, legs⟩) | fresh
  · exact .inl (.inl (by rw [linked]; exact inPool))
  · refine .inl (.inr ⟨u, ?_, legs⟩)
    obtain rfl : n = m := by simpa using head
    unfold Pools.unlinkedGetOrCreate
    rw [found]
    exact found
  · exact .inr fresh

theorem newCircuit_sameExit {path : Option Path} {exit : Option RelayId} (set : Nat) (h : SameExit d (.launchLeg n :: rest))
    (sound : Sound d (.launchLeg n :: rest)) (found : d.unlinked n = some u) (live : d.cfxs u.cfx = some x)
    (unborn : c ∉ d.global) (lookup : d.getExitForNonce n = .ok exit)
    (chosen : ∀ path', path = some path' → exit.all (· = path'.exit) = true)
    (next : frames = [.markForClose c, .addLeg n set c] ∨ frames = [.establish n set c]) :
    SameExit (d.newCircuit c n u.cfx x path) (frames ++ rest) := by
  have self : ((d.newCircuit c n u.cfx x path).circs c).origin = (some n, path) := by
    simp [Pools.newCircuit, Circ.origin]
  have others {a : CircId} (other : a ≠ c) : (d.newCircuit c n u.cfx x path).circs a = d.circs a := by
    simp only [Pools.newCircuit, Function.update_of_ne other]
  have goes {b : CircId} {path' path'' : Path} (isPath : path = some path') (other : (d.circs b).origin = (some n, some path'')) :
      path'.exit = path''.exit := by
    rcases h.top n rfl with hasLeg | fresh
    · obtain ⟨a, known, origin, rfl⟩ := h.copied sound.neat.owned hasLeg lookup
      have same : known.exit = path'.exit := by simpa using chosen path' isPath
      exact same.symm.trans (h.same n a b known path'' origin other)
    · exact absurd (congrArg Prod.fst other) (fresh b)
  constructor
  · intro m a b path' path'' first second
    by_cases isA : a = c
    · rw [isA, self] at first
      obtain ⟨rfl, rfl⟩ : n = m ∧ path = some path' := by simpa using first
      by_cases isB : b = c
      · rw [isB, self] at second
        obtain rfl : path' = path'' := by simpa using second
        rfl
      · rw [others isB] at second
        exact goes rfl second
    · rw [others isA] at first
      by_cases isB : b = c
      · rw [isB, self] at second
        obtain ⟨rfl, rfl⟩ : n = m ∧ path = some path'' := by simpa using second
        exact (goes rfl first).symm
      · rw [others isB] at second
        exact h.same m a b path' path'' first second
  · intro m a leg
    have launched : IsLeg d (frames ++ rest) m a := newCircuit_isLeg live leg
    by_cases here : a = c
    · subst here
      have launchedFor : ((d.newCircuit a n u.cfx x path).circs a).launchedFor = some n := congrArg Prod.fst self
      rw [launchedFor]
      have flies : ∃ k, InFlight (frames ++ rest) m k a := by
        rcases launched with ⟨i, y, isLive, -, mem⟩ | ⟨v, isFound, mem⟩ | flies
        · exact absurd (.inl ⟨i, y, isLive, rfl, mem⟩) (sound.not_leg unborn)
        · exact absurd (.inr (.inl ⟨v, isFound, mem⟩)) (sound.not_leg unborn)
        · exact flies
      obtain ⟨k, flies⟩ := flies
      have old : ¬InFlight rest m k a := fun old => sound.not_leg unborn (.inr (.inr ⟨k, old.imp (.tail _) (.tail _)⟩))
      unfold InFlight at flies old
      rcases next with rfl | rfl <;> simp_all
    · rw [others here]
      refine h.legs m a (launched.restack fun k flies => ?_)
      have tail : InFlight rest m k a := by
        unfold InFlight at flies ⊢
        rcases next with rfl | rfl <;> simp_all
      exact tail.imp (.tail _) (.tail _)
  · intro a m launched
    by_cases here : a = c
    · have launchedFor : ((d.newCircuit c n u.cfx x path).circs c).launchedFor = some n := congrArg Prod.fst self
      rw [here, launchedFor] at launched
      obtain rfl := Option.some.inj launched
      obtain ⟨y, isLive, nonce, -⟩ := sound.neat.owned.unlinked n u found
      exact nonce ▸ sound.neat.keys u.cfx y isLive
    · rw [others here] at launched
      exact h.known a m launched
  · intro m head
    rcases next with rfl | rfl <;> simp at head

theorem Move.sameExit (move : Move p d stack e d' stack') (sound : Sound d stack) (h : SameExit d stack)
    (stays : ∀ c n, stack.head? = some (.afterClose c n) → d' = d) : SameExit d' stack' := by
  have quiet {f : Frame} {rest : List Frame} (split : stack = f :: rest) (m : Nonce) : rest.head? ≠ some (.launchLeg m) := by
    intro head
    have deep := sound.deep m
    rw [split] at deep
    exact deep (List.mem_of_mem_head? head)
  -- a step that launches nothing
  have mono (other : ∀ n, stack.head? ≠ some (.launchLeg n))
      (top : ∀ m, stack'.head? = some (.launchLeg m) → d'.HasLeg m ∨ ∀ c, (d.circs c).launchedFor ≠ some m) :
      SameExit d' stack' := by
    refine h.mono (fun a => ?_) (fun m a leg => ?_) (move.keyed sound.filed fun _ => sound.neat.keyed).1 top
    · exact (move.origin a).resolve_right fun ⟨n, _, head, _⟩ => other n head
    · exact (move.isLeg sound leg).resolve_right fun ⟨_, head, _⟩ => other m head
  cases id move with
  | @launchSet n fresh =>
      refine mono (fun _ head => by simp at head) fun m head => ?_
      obtain rfl : n = m := by simpa using head
      exact .inr fun a launched => fresh (h.known a n launched)
  | @add n c isOpen nonce =>
      refine mono (fun _ head => by simp at head) fun m head => ?_
      obtain rfl : n = m := by simpa using head
      exact .inl (sound.hasLeg isOpen nonce)
  | close | closeSet | finalize | free | flags => exact mono (fun _ head => by simp at head) fun _ head => by simp at head
  | repurpose isOpen closes => exact mono (fun _ head => by simp at head) fun m head => .inl (closes.hasLeg (by simp) head)
  | answer pending found next =>
      refine mono (fun _ head => by simp at head) fun m head => ?_
      rcases next with rfl | rfl <;> simp at head
  | skip | spare | settle | forget | register | setPurpose =>
      exact mono (fun _ head => by simp at head) fun m head => absurd head (quiet rfl m)
  | mark alive closes => exact mono (fun _ head => by simp at head) fun m head => .inl (closes.hasLeg (quiet rfl) head)
  | markAll => exact mono (fun _ head => by simp at head) fun m head => absurd head (head_quiet (by simp) (by simp) m)
  | teardown => exact mono (fun _ head => by simp at head) fun m head => absurd head (head_quiet (by simp) (quiet rfl) m)
  | deleteEmpty | oom | buildFails | built => exact mono (fun _ head => by simp at head) fun _ head => by simp at head
  | @refill c n full rest linked =>
      refine mono (fun _ head => by simp at head) fun m head => ?_
      obtain rfl : n = m := by simpa using head
      exact .inl (.inl linked)
  | @rebuild c n full rest id x d' unlinked holds live rebuilt =>
      have same : d' = d := stays c n rfl
      have gone : (d'.circs c).conflux = none := by
        rcases rebuild_inv rebuilt with ⟨u, -, -, rfl⟩ | ⟨d₁, u, -, -, rfl⟩ <;> simp [Pools.modifyCirc]
      rw [same, holds] at gone
      cases gone
  | @refuse n c path rest d' u x unborn created live spent =>
      have made := getOrCreate_sameExit h
      rw [created] at made
      refine made.mono (fun _ => rfl) (fun m a leg => leg.restack fun k flies => ?_) (fun _ mem => mem)
        fun m head => absurd head (quiet rfl m)
      exact flies.imp (.tail _) (.tail _)
  | @launch n c path rest frames d₁ u x exit unborn created live allowed lookup next =>
      have made := getOrCreate_sameExit h
      have found := getOrCreate_found d n
      have global := (getOrCreate_frame d n).2.2.2
      have sound' := getOrCreate_sound sound
      rw [created] at made found global sound'
      refine newCircuit_sameExit u.id made sound' found live (by rw [global]; exact unborn) lookup ?_ ?_
      · rintro path' rfl
        rcases next with ⟨none, -⟩ | ⟨chosen, isPath, same, -⟩
        · cases none
        · obtain rfl := Option.some.inj isPath
          exact same
      · rcases next with ⟨-, frames⟩ | ⟨_, -, -, frames⟩
        · exact .inl frames
        · exact .inr frames

end SameExit

/-! ## Runs -/

section Runs
variable {p : Params} {s t : State} {e : Event} {c : CircId} {n : Nonce}

theorem afterClose_stays {d d' : Pools} {frames : List Frame} (kept : d.rebuilds c n = false)
    (ok : d.afterClose c n = .ok (d', frames)) : d' = d := by
  unfold Pools.afterClose at ok
  split at ok
  · rename_i launches
    split at ok
    · obtain ⟨x, -, ok⟩ := bind_eq_ok ok
      exact (Prod.mk.inj (Except.ok.inj ok)).1.symm
    · rename_i unlinked
      split at ok
      · exact (Prod.mk.inj (Except.ok.inj ok)).1.symm
      · rename_i id holds
        obtain ⟨x, deref, ok⟩ := bind_eq_ok ok
        split at ok
        · exact (Prod.mk.inj (Except.ok.inj ok)).1.symm
        · rename_i whole
          have live := getCfx_eq deref
          simp [Pools.rebuilds, launches, unlinked, holds, live, whole] at kept
  · exact (Prod.mk.inj (Except.ok.inj ok)).1.symm

theorem keepsExit_spec (ok : keepsExit s = true) :
    detaches s = true ∧ ∀ c n, s.stack.head? = some (.afterClose c n) → s.pools.rebuilds c n = false := by
  by_cases closing : ∃ c n rest, s.stack = .afterClose c n :: rest
  · obtain ⟨c, n, rest, top⟩ := closing
    simp only [keepsExit, top] at ok
    simp only [detaches, top]
    have kept : s.pools.rebuilds c n = false := by
      rcases Bool.or_eq_true_iff.mp ok with idle | both
      · simp [Pools.rebuilds, Option.isNone_iff_eq_none.mp idle]
      · simpa using (Bool.and_eq_true_iff.mp both).2
    refine ⟨?_, fun a m head => ?_⟩
    · rcases Bool.or_eq_true_iff.mp ok with idle | both
      · simp [idle]
      · simp [(Bool.and_eq_true_iff.mp both).1]
    · obtain ⟨rfl, rfl⟩ : c = a ∧ n = m := by simpa using head
      exact kept
  · refine ⟨?_, fun c n head => ?_⟩
    · unfold detaches
      split
      · exact absurd ⟨_, _, _, ‹_›⟩ closing
      · rfl
    · obtain ⟨rest, top⟩ := List.head?_eq_some_iff.mp head
      exact absurd ⟨c, n, rest, top⟩ closing

theorem step_stays (kept : keepsExit s = true) (head : s.stack.head? = some (.afterClose c n)) (stepped : s.step p e = some t) :
    t.pools = s.pools := by
  obtain ⟨rest, top⟩ := List.head?_eq_some_iff.mp head
  unfold State.step at stepped
  split at stepped
  · cases stepped
  · rw [top] at stepped
    cases e with
    | run full =>
        obtain rfl := Option.some.inj stepped
        cases ended : s.pools.afterClose c n with
        | error fault => rfl
        | ok result => exact afterClose_stays ((keepsExit_spec kept).2 c n head) ended
    | _ => cases stepped

def Pools.OneExit (d : Pools) : Prop :=
  ∀ n a b path path', (d.circs a).origin = (some n, some path) → (d.circs b).origin = (some n, some path') →
    path.exit = path'.exit

theorem Pools.OneExit.mono {d d' : Pools} (h : d.OneExit) (circs : ∀ a, (d'.circs a).origin = (d.circs a).origin) :
    d'.OneExit := by
  intro n a b path path' first second
  rw [circs] at first second
  exact h n a b path path' first second

theorem step_oneExit (tidy : s.Tidy) (running : s.phase = .running → s.pools.side = .client ∧ SameExit s.pools s.stack)
    (one : s.pools.OneExit) (kept : keepsExit s = true) (stepped : s.step p e = some t) :
    (t.phase = .running → t.pools.side = .client ∧ SameExit t.pools t.stack) ∧ t.pools.OneExit := by
  cases tidy with
  | client phase side sound =>
      obtain ⟨-, same⟩ := running phase
      rcases step_moves side phase stepped with (⟨fault, rfl⟩ | ⟨-, -, move⟩) | ⟨-, rfl⟩
      · exact ⟨fun _ => ⟨side, same⟩, one⟩
      · have next := move.sameExit sound same fun c n head => step_stays kept head stepped
        exact ⟨fun _ => ⟨move.side.trans side, next⟩, next.same⟩
      · exact ⟨fun exiting => (by cases exiting), one⟩
  | relay phase relay =>
      have client := (running phase).1
      rw [relay.side] at client
      cases client
  | exiting phase idle ending =>
      rcases step_exiting_inv phase idle stepped with ⟨fault, rfl⟩ | ⟨c, full, d, -, frees, rfl⟩ | rfl | ⟨d, all, freed, rfl⟩
      · exact ⟨running, one⟩
      · refine ⟨fun back => ?_, one.mono frees.origin⟩
        have was : s.phase = .running := back
        rw [phase] at was
        cases was
      · refine ⟨fun back => ?_, one⟩
        have was : s.phase = .running := back
        rw [phase] at was
        cases was
      · obtain ⟨d', freed', -, circs, -⟩ := ending.poolFreeAll all
        obtain rfl := Except.ok.inj (freed.symm.trans freed')
        exact ⟨fun back => (by cases back), one.mono fun a => by rw [circs]⟩
  | done phase idle owned none =>
      unfold State.step at stepped
      split at stepped
      · cases stepped
      · rw [idle] at stepped
        cases e with
        | shutdown =>
            obtain rfl := Option.some.inj stepped
            refine ⟨fun back => ?_, one⟩
            have was : s.phase = .running := back
            rw [phase] at was
            cases was
        | _ => simp [State.call, phase] at stepped

theorem initial_sameExit : SameExit (State.initial .client).pools [] := by
  refine ⟨?_, ?_, ?_, ?_⟩ <;> simp [State.initial, Circ.plain, Circ.origin, IsLeg, InFlight]

/-- As long as no set is rebuilt around the object of its last circuit, the legs launched for a nonce end at one exit. -/
theorem one_exit_per_nonce (reach : (State.machine p).Reach (fun s _ => keepsExit s = true) (State.initial .client) s)
    (a b : CircId) (path path' : Path) (first : (s.pools.circs a).launchedFor = some n)
    (second : (s.pools.circs b).launchedFor = some n) (firstPath : (s.pools.circs a).path = some path)
    (secondPath : (s.pools.circs b).path = some path') : path.exit = path'.exit := by
  have inv := reach.invariant
    (I := fun s => s.Tidy ∧ (s.phase = .running → s.pools.side = .client ∧ SameExit s.pools s.stack) ∧ s.pools.OneExit)
    ⟨initial_tidy .client, fun _ => ⟨rfl, initial_sameExit⟩, initial_sameExit.same⟩ fun s e t ih ok stepped =>
      ⟨step_tidy ih.1 (keepsExit_spec ok).1 stepped, step_oneExit ih.1 ih.2.1 ih.2.2 ok stepped⟩
  exact inv.2.2 n a b path path' (Prod.ext first firstPath) (Prod.ext second secondPath)

/-- A set of two legs loses one and is refilled. -/
theorem refilled_leg_same_exit : ∃ s, (State.machine .consensus).Reach (fun s _ => keepsExit s = true)
    (State.initial .client) s ∧ ((s.pools.circs 1).path.map (·.exit)).isSome ∧
      (s.pools.circs 1).path.map (·.exit) = (s.pools.circs 3).path.map (·.exit) := by
  obtain ⟨s, reach, first, second, firstPath, secondPath⟩ := Machine.exists_of_run (State.machine .consensus)
    (fun s _ => keepsExit s = true) (State.initial .client)
    (P := fun s => (s.pools.circs 1).launchedFor = some 7 ∧ (s.pools.circs 3).launchedFor = some 7 ∧
      (s.pools.circs 1).path.isSome ∧ (s.pools.circs 3).path.isSome)
    [.launchSet 7, .build 1 (some ⟨9, 1, 2⟩), .built, .run false, .add 7, .build 2 (some ⟨9, 3, 4⟩), .built, .run false,
      .recvLinked 1 true true, .recvLinked 2 true true, .close 1, .run false, .run false, .build 3 (some ⟨9, 5, 6⟩),
      .built, .run false] (by decide)
  obtain ⟨path, firstPath⟩ := Option.isSome_iff_exists.mp firstPath
  obtain ⟨path', secondPath⟩ := Option.isSome_iff_exists.mp secondPath
  refine ⟨s, reach, by rw [firstPath]; rfl, ?_⟩
  rw [firstPath, secondPath]
  exact congrArg some (one_exit_per_nonce reach 1 3 path path' first second firstPath secondPath)

/-- The set of a single leg is rebuilt when its circuit is closed, and its new leg goes to another exit. -/
theorem rebuilt_set_other_exit : ¬∀ s, (State.machine .consensus).Reach (fun _ _ => True) (State.initial .client) s →
    ∀ n a b path path', (s.pools.circs a).launchedFor = some n → (s.pools.circs b).launchedFor = some n →
      (s.pools.circs a).path = some path → (s.pools.circs b).path = some path' → path.exit = path'.exit := by
  intro claim
  obtain ⟨s, reach, first, second, firstPath, secondPath⟩ := Machine.exists_of_run (State.machine .consensus)
    (fun _ _ => True) (State.initial .client)
    (P := fun s => (s.pools.circs 1).launchedFor = some 7 ∧ (s.pools.circs 2).launchedFor = some 7 ∧
      (s.pools.circs 1).path = some ⟨9, 1, 2⟩ ∧ (s.pools.circs 2).path = some ⟨8, 3, 4⟩)
    [.launchSet 7, .build 1 (some ⟨9, 1, 2⟩), .built, .run false, .recvLinked 1 true true, .close 1, .run false, .run false,
      .build 2 (some ⟨8, 3, 4⟩)] (by decide)
  exact absurd (claim s reach 7 1 2 _ _ first second firstPath secondPath) (by decide)

end Runs
end TorJet.Pool
