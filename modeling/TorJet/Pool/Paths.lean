import TorJet.Pool.Legs

/-!
# The legs of a nonce share no guard and no middle

A new leg avoids the relays of the legs in the pools. A leg that is being established is in no pool yet, so no other leg of
its nonce may be launched before it is registered or closed.
-/

namespace TorJet.Pool
open Smartlist Base

def Pools.pooledLegs (d : Pools) (n : Nonce) : List CircId :=
  ((d.linked n).bind d.cfxs).elim [] Cfx.legs ++ (d.unlinked n).elim [] Unlinked.circs

/-- `fewBridges` stands for `UseBridges` without enough bridges to exclude the used ones. -/
def Pools.confluxAddGuardsToExcludeList (d : Pools) (fewBridges : Bool) (n : Nonce) : List RelayId :=
  if fewBridges then [] else (d.pooledLegs n).filterMap fun c => (d.circs c).path.map (·.guard)

def Pools.confluxAddMiddlesToExcludeList (d : Pools) (nodes : RelayId → Bool) (n : Nonce) : List RelayId :=
  ((d.pooledLegs n).filterMap fun c => (d.circs c).path.map (·.middle)).filter nodes

def honours (nodes : RelayId → Bool) (s : State) (e : Event) : Bool :=
  match s.stack, e with
  | .launchLeg n :: _, .build _ (some path) =>
      path.guard ∉ s.pools.confluxAddGuardsToExcludeList false n && nodes path.middle &&
        path.middle ∉ s.pools.confluxAddMiddlesToExcludeList nodes n
  | _, _ => true

/-! ## No launch while a leg is being established -/

def Behind (d : Pools) (rest : List Frame) : Prop :=
  (d.mayLaunch = false ∧ ∀ n, .launchLeg n ∉ rest) ∨ ∀ n set c, InFlight rest n set c → (d.circs c).marked = true

/-- As `Behind`, but the top of the stack may be about to close one. -/
def Sheltered (d : Pools) (stack : List Frame) : Prop :=
  (d.mayLaunch = false ∧ ∀ n, .launchLeg n ∉ stack) ∨
    ∀ f rest, stack = f :: rest → ∀ n set c, InFlight rest n set c → (d.circs c).marked = true ∨ f = .markForClose c

section Sheltered
variable {p : Params} {d d' : Pools} {stack stack' rest frames : List Frame} {c : CircId} {n : Nonce} {e : Event} {f : Frame}

theorem Sheltered.behind (h : Sheltered d (f :: rest)) (closed : ∀ c, f = .markForClose c → (d.circs c).marked = true) :
    Behind d rest := by
  rcases h with ⟨quiet, none⟩ | marked
  · exact .inl ⟨quiet, fun n mem => none n (.tail _ mem)⟩
  · refine .inr fun n set c flies => ?_
    rcases marked f rest rfl n set c flies with already | top
    · exact already
    · exact closed c top

theorem Behind.mono (h : Behind d rest) (launch : d.mayLaunch = false → d'.mayLaunch = false)
    (marked : ∀ n set c, InFlight rest n set c → (d.circs c).marked = true → (d'.circs c).marked = true) : Behind d' rest := by
  rcases h with ⟨quiet, none⟩ | closed
  · exact .inl ⟨launch quiet, none⟩
  · exact .inr fun n set c flies => marked n set c flies (closed n set c flies)

theorem Behind.push (h : Behind d rest) (plain : ∀ n set c, ¬InFlight frames n set c)
    (quiet : d.mayLaunch = false → ∀ n, .launchLeg n ∉ frames) : Sheltered d (frames ++ rest) := by
  rcases h with ⟨shut, none⟩ | closed
  · exact .inl ⟨shut, fun n mem => (List.mem_append.mp mem).elim (quiet shut n) (none n)⟩
  · refine .inr fun f after split n set c flies => .inl (closed n set c ?_)
    have whole : InFlight (frames ++ rest) n set c := by
      rw [split]
      exact flies.imp (.tail _) (.tail _)
    refine whole.imp (fun mem => ?_) fun mem => ?_
    · exact (List.mem_append.mp mem).resolve_left fun new => plain n set c (.inl new)
    · exact (List.mem_append.mp mem).resolve_left fun new => plain n set c (.inr new)

theorem Behind.sheltered (h : Behind d rest) : Sheltered d rest := by
  have pushed : Sheltered d ([] ++ rest) := h.push (fun _ _ _ flies => not_inFlight_nil flies) fun _ _ mem => by cases mem
  exact pushed

theorem sheltered_of_none (plain : ∀ n set c, ¬InFlight stack n set c) : Sheltered d stack :=
  .inr fun _ _ split n set c flies => absurd (flies.imp (.tail _) (.tail _)) (split ▸ plain n set c)

theorem Sheltered.launched (h : Sheltered d (.launchLeg n :: rest)) {m : Nonce} {set : Nat}
    (flies : InFlight (.launchLeg n :: rest) m set c) : (d.circs c).marked = true := by
  have later : InFlight rest m set c := by simpa [InFlight] using flies
  rcases h with ⟨-, none⟩ | marked
  · exact absurd (.head _) (none n)
  · rcases marked _ rest rfl m set c later with closed | top
    · exact closed
    · cases top

theorem Move.sheltered (move : Move p d stack e d' stack') (sound : Sound d stack) (h : Sheltered d stack)
    (quiet : d.mayLaunch = false → ∀ c n, stack.head? = some (.afterClose c n) → stack' = stack.tail) : Sheltered d' stack' := by
  have deep {f : Frame} {rest : List Frame} (split : stack = f :: rest) (m : Nonce) : .launchLeg m ∉ rest := by
    have deep := sound.deep m
    rw [split] at deep
    exact deep
  have marks {f : Frame} {rest : List Frame} (split : stack = f :: rest) (m : Nonce) (set : Nat) (a : CircId)
      (flies : InFlight rest m set a) (marked : (d.circs a).marked = true) : (d'.circs a).marked = true := by
    have born := (sound.flies m set a (by rw [split]; exact flies.imp (.tail _) (.tail _))).2.1
    exact (move.marked marked born).1
  cases id move with
  | launchSet | add | close | closeSet | finalize | free | flags =>
      exact sheltered_of_none fun _ _ _ flies => by simp [InFlight] at flies
  | repurpose isOpen closes =>
      refine sheltered_of_none fun m set a flies => closes.not_inFlight m set a ?_
      simpa [InFlight] using flies
  | answer pending found next =>
      exact sheltered_of_none fun _ _ _ flies => by rcases next with rfl | rfl <;> simp [InFlight] at flies
  | skip marked =>
      exact (h.behind fun a top => by obtain rfl := Frame.markForClose.inj top; exact marked).sheltered
  | @mark c full rest frames d' alive closes =>
      have marked : Sheltered (d.mark c) (.markForClose c :: rest) := by
        refine h.imp id fun closed f after split m set a flies => (closed f after split m set a flies).imp_left fun was => ?_
        by_cases here : a = c <;> simp [Pools.mark, Pools.modifyCirc, here, was]
      have behind : Behind (d.mark c) rest := marked.behind fun a top => by
        obtain rfl := Frame.markForClose.inj top
        simp [Pools.mark, Pools.modifyCirc]
      have launch := closes.untouched.2.2.2
      have after : Behind d' rest := behind.mono (fun shut => launch.trans shut) fun m set a _ was => by
        rw [(closes.circs a).1]
        exact was
      refine after.push closes.not_inFlight fun shut m mem => ?_
      rcases closes.leaves with rfl | ⟨k, u, rfl, may, -⟩ | ⟨id, x, -, -, rfl | rfl⟩
      · cases mem
      · rw [← launch, shut] at may
        cases may
      · simp at mem
      · simp at mem
  | @markAll n full rest =>
      have behind := h.behind fun a top => by cases top
      have pushed : Sheltered d ((((d.unlinked n).elim [] Unlinked.circs).map .markForClose ++ [.markLinkedForClose n]) ++ rest) :=
        behind.push (fun m set a flies => by simp [InFlight] at flies) fun _ m mem => by simp at mem
      simpa using pushed
  | @deleteEmpty n full rest u x found live empty =>
      have behind : Behind (d.deleteSet x.nonce u) rest := (h.behind fun a top => by cases top).mono
        (fun shut => by rw [← shut]; unfold Pools.deleteSet; split <;> rfl) (marks rfl)
      have pushed : Sheltered (d.deleteSet x.nonce u) ([.markLinkedForClose n] ++ rest) :=
        behind.push (fun m set a flies => by simp [InFlight] at flies) fun _ m mem => by simp at mem
      exact pushed
  | spare => exact (h.behind fun a top => by cases top).sheltered
  | @teardown n full rest id x linked live =>
      have behind : Behind (d.setCfx id (some { x with inFullTeardown := true })) rest := (h.behind fun a top => by cases top).mono
        (fun shut => shut) (marks rfl)
      exact behind.push (fun m set a flies => by simp [InFlight] at flies) fun _ m mem => by simp at mem
  | settle => exact (h.behind fun a top => by cases top).sheltered
  | @refill c n full rest linked =>
      rcases h.behind (fun a top => by cases top) with ⟨shut, none⟩ | closed
      · exact absurd (quiet shut c n rfl) (by simp)
      · have behind : Behind d rest := .inr closed
        have pushed : Sheltered d ([.launchLeg n] ++ rest) := behind.push (fun m set a flies => by simp [InFlight] at flies)
          fun shut => absurd (quiet shut c n rfl) (by simp)
        exact pushed
  | @rebuild c n full rest id x d' unlinked holds live rebuilt =>
      rcases h.behind (fun a top => by cases top) with ⟨shut, none⟩ | closed
      · exact absurd (quiet shut c n rfl) (by simp)
      · refine .inr fun f after split m set a flies => .inl ?_
        obtain ⟨rfl, rfl⟩ := List.cons.inj split
        exact marks rfl m set a flies (closed m set a flies)
  | @refuse n c path rest d' u x unborn created live spent =>
      have behind : Behind d' stack' := .inr fun m set a flies =>
        marks rfl m set a flies (h.launched (flies.imp (.tail _) (.tail _)))
      exact behind.sheltered
  | @launch n c path rest frames d₁ u x exit unborn created live allowed lookup next =>
      have closed (m : Nonce) (set : Nat) (a : CircId) (flies : InFlight rest m set a) :
          ((d₁.newCircuit c n u.cfx x path).circs a).marked = true :=
        marks rfl m set a flies (h.launched (flies.imp (.tail _) (.tail _)))
      refine .inr fun f after split m set a flies => ?_
      rcases next with ⟨-, rfl⟩ | ⟨_, -, -, rfl⟩
      · obtain ⟨rfl, rfl⟩ := List.cons.inj split
        by_cases old : InFlight rest m set a
        · exact .inl (closed m set a old)
        · right
          unfold InFlight at flies old
          simp_all
      · obtain ⟨rfl, rfl⟩ := List.cons.inj split
        exact .inl (closed m set a flies)
  | @oom n set c other rest isOpen =>
      refine .inl ⟨by simp [Pools.mayLaunch], fun m mem => ?_⟩
      simp only [List.mem_cons, reduceCtorEq, false_or] at mem
      exact deep rfl m mem
  | @buildFails n set c rest =>
      rcases h.behind (fun a top => by cases top) with ⟨shut, none⟩ | closed
      · refine .inl ⟨shut, fun m mem => none m ?_⟩
        simpa using mem
      · refine .inr fun f after split m k a flies => ?_
        obtain ⟨rfl, rfl⟩ := List.cons.inj split
        by_cases old : InFlight rest m k a
        · exact .inl (closed m k a old)
        · right
          unfold InFlight at flies old
          simp_all
  | @built n set c rest =>
      rcases h.behind (fun a top => by cases top) with ⟨shut, none⟩ | closed
      · refine .inl ⟨shut, fun m mem => none m ?_⟩
        simpa using mem
      · refine .inr fun f after split m k a flies => ?_
        obtain ⟨rfl, rfl⟩ := List.cons.inj split
        exact .inl (closed m k a flies)
  | forget | register | setPurpose =>
      apply Behind.sheltered
      exact (h.behind fun a top => by cases top).mono (fun shut => shut) (marks rfl)

end Sheltered

/-! ## Legs -/

def Diverse (d : Pools) (stack : List Frame) : Prop :=
  ∀ n a b path path', IsLeg d stack n a → IsLeg d stack n b → a ≠ b → (d.circs a).marked = false → (d.circs b).marked = false →
    (d.circs a).path = some path → (d.circs b).path = some path' → path.guard ≠ path'.guard ∧ path.middle ≠ path'.middle

section Diverse
variable {p : Params} {d d' : Pools} {stack stack' rest : List Frame} {a b : CircId} {n : Nonce} {e : Event}

theorem Diverse.mono (h : Diverse d stack) (legs : ∀ n a, IsLeg d' stack' n a → IsLeg d stack n a)
    (circs : ∀ a, (d'.circs a).path = (d.circs a).path) (marked : ∀ a, (d'.circs a).marked = false → (d.circs a).marked = false) :
    Diverse d' stack' := by
  intro n a b path path' legA legB other openA openB pathA pathB
  rw [circs] at pathA pathB
  exact h n a b path path' (legs n a legA) (legs n b legB) other (marked a openA) (marked b openB) pathA pathB

theorem Sheltered.pooled (sheltered : Sheltered d (.launchLeg n :: rest)) (neat : Neat d)
    (leg : IsLeg d (.launchLeg n :: rest) n a) (alive : (d.circs a).marked = false) : a ∈ d.pooledLegs n := by
  rcases leg with ⟨id, x, live, rfl, mem⟩ | ⟨u, found, mem⟩ | ⟨set, flies⟩
  · have inPool := neat.inPool id x live (List.ne_nil_of_mem mem)
    rw [Pools.pooledLegs, inPool, Option.bind_some, live]
    exact List.mem_append_left _ mem
  · rw [Pools.pooledLegs, found]
    exact List.mem_append_right _ mem
  · rw [sheltered.launched flies] at alive
    cases alive

theorem honours_apart {s : State} {nodes : RelayId → Bool} {path path' : Path} (ok : honours nodes s e = true)
    (top : s.stack = .launchLeg n :: rest) (builds : e = .build a (some path)) (pooled : b ∈ s.pools.pooledLegs n)
    (isPath : (s.pools.circs b).path = some path') : path.guard ≠ path'.guard ∧ path.middle ≠ path'.middle := by
  simp only [honours, top, builds, Bool.and_eq_true, decide_eq_true_eq] at ok
  obtain ⟨⟨guard, isNode⟩, middle⟩ := ok
  refine ⟨fun same => guard ?_, fun same => middle ?_⟩
  · rw [Pools.confluxAddGuardsToExcludeList, if_neg Bool.false_ne_true]
    exact List.mem_filterMap.mpr ⟨b, pooled, by rw [isPath, same]; rfl⟩
  · exact List.mem_filter.mpr ⟨List.mem_filterMap.mpr ⟨b, pooled, by rw [isPath, same]; rfl⟩, isNode⟩

theorem Move.diverse {s : State} {nodes : RelayId → Bool} (move : Move p s.pools s.stack e d' stack') (sound : Sound s.pools s.stack)
    (sheltered : Sheltered s.pools s.stack) (h : Diverse s.pools s.stack) (ok : honours nodes s e = true) :
    Diverse d' stack' := by
  have old {n : Nonce} {a : CircId} (leg : IsLeg s.pools s.stack n a) (alive : (d'.circs a).marked = false) :
      (s.pools.circs a).marked = false ∧ (d'.circs a).path = (s.pools.circs a).path := by
    have born : a ∈ s.pools.global := by
      by_contra unborn
      exact sound.not_leg unborn leg
    refine ⟨?_, ?_⟩
    · by_contra closed
      rw [(move.marked (by simpa using closed) born).1] at alive
      cases alive
    · rcases move.origin a with same | ⟨_, _, -, -, unborn, -⟩
      · exact congrArg Prod.snd same
      · exact absurd born unborn
  have apart {n : Nonce} {a b : CircId} {chosen : Option Path} {path path' : Path} (top : s.stack.head? = some (.launchLeg n))
      (builds : e = .build a chosen) (isChosen : (d'.circs a).path = chosen) (leg : IsLeg s.pools s.stack n b)
      (alive : (d'.circs b).marked = false) (pathA : (d'.circs a).path = some path) (pathB : (d'.circs b).path = some path') :
      path.guard ≠ path'.guard ∧ path.middle ≠ path'.middle := by
    obtain ⟨wasAlive, samePath⟩ := old leg alive
    obtain rfl : chosen = some path := isChosen.symm.trans pathA
    obtain ⟨rest, stack⟩ := List.head?_eq_some_iff.mp top
    rw [stack] at sheltered leg
    exact honours_apart ok stack builds (sheltered.pooled sound.neat leg wasAlive) (samePath ▸ pathB)
  intro n a b path path' legA legB other openA openB pathA pathB
  rcases move.isLeg sound legA with oldA | ⟨chosen, top, builds, -, isChosen⟩
  · rcases move.isLeg sound legB with oldB | ⟨chosen, top, builds, -, isChosen⟩
    · obtain ⟨aliveA, sameA⟩ := old oldA openA
      obtain ⟨aliveB, sameB⟩ := old oldB openB
      exact h n a b path path' oldA oldB other aliveA aliveB (sameA ▸ pathA) (sameB ▸ pathB)
    · obtain ⟨guard, middle⟩ := apart top builds isChosen oldA openA pathB pathA
      exact ⟨guard.symm, middle.symm⟩
  · rcases move.isLeg sound legB with oldB | ⟨chosen', top', builds', -, isChosen'⟩
    · exact apart top builds isChosen oldB openB pathA pathB
    · rw [builds] at builds'
      exact absurd (Event.build.inj builds').1 other

end Diverse

/-! ## Runs -/

section Runs
variable {p : Params} {s t : State} {e : Event} {a b : CircId} {n : Nonce}

theorem step_quiet (shut : s.pools.mayLaunch = false) {c : CircId} (head : s.stack.head? = some (.afterClose c n))
    (stepped : s.step p e = some t) : t.stack = s.stack.tail := by
  obtain ⟨rest, top⟩ := List.head?_eq_some_iff.mp head
  have idle : s.pools.afterClose c n = .ok (s.pools, []) := by
    unfold Pools.afterClose
    rw [if_neg (by simp [shut])]
    rfl
  unfold State.step at stepped
  split at stepped
  · cases stepped
  · rw [top] at stepped ⊢
    cases e with
    | run full =>
        obtain rfl := Option.some.inj stepped
        rw [idle]
        rfl
    | _ => cases stepped

structure Keeps (s : State) : Prop where
  side : s.pools.side = .client
  shut : Shut s.pools s.stack
  sheltered : Sheltered s.pools s.stack

theorem step_diverse {nodes : RelayId → Bool} (tidy : s.Tidy) (running : s.phase = .running → Keeps s)
    (diverse : Diverse s.pools s.stack) (keeps : keepsPurpose (.pool e) = true) (ok : honours nodes s e = true)
    (stepped : s.step p e = some t) : (t.phase = .running → Keeps t) ∧ Diverse t.pools t.stack := by
  have other (c : CircId) (full : Bool) : e ≠ .repurpose c full := by
    rintro rfl
    cases keeps
  cases tidy with
  | client phase side sound =>
      obtain ⟨-, shut, sheltered⟩ := running phase
      rcases step_moves side phase stepped with (⟨fault, rfl⟩ | ⟨-, -, move⟩) | ⟨-, rfl⟩
      · exact ⟨fun _ => ⟨side, shut, sheltered⟩, diverse⟩
      · refine ⟨fun _ => ⟨move.side.trans side, move.shut sound shut other, ?_⟩, move.diverse sound sheltered diverse ok⟩
        exact move.sheltered sound sheltered fun quiet c n head => step_quiet quiet head stepped
      · exact ⟨fun exiting => (by cases exiting), diverse⟩
  | relay phase relay =>
      have client := (running phase).side
      rw [relay.side] at client
      cases client
  | exiting phase idle ending =>
      have stays (back : s.phase = .running) : False := by
        rw [phase] at back
        cases back
      rcases step_exiting_inv phase idle stepped with ⟨fault, rfl⟩ | ⟨c, full, d, -, frees, rfl⟩ | rfl | ⟨d, all, freed, rfl⟩
      · exact ⟨fun back => (stays back).elim, diverse⟩
      · refine ⟨fun back => (stays back).elim, diverse.mono (fun m a => frees.isLeg ending.owned) (fun a => ?_) fun a => ?_⟩
        · exact congrArg Prod.snd (frees.origin a)
        · rw [frees.marked a]
          exact id
      · exact ⟨fun back => (stays back).elim, diverse⟩
      · obtain ⟨d', freed', owned, circs, none⟩ := ending.poolFreeAll all
        obtain rfl := Except.ok.inj (freed.symm.trans freed')
        refine ⟨fun back => (by cases back), fun m a b path path' leg => ?_⟩
        rcases leg with ⟨id, x, live, -⟩ | ⟨u, found, -⟩ | ⟨set, flies⟩
        · rw [none id] at live
          cases live
        · obtain ⟨x, live, -⟩ := owned.unlinked m u found
          rw [none u.cfx] at live
          cases live
        · rw [idle] at flies
          exact absurd flies not_inFlight_nil
  | done phase idle owned none =>
      unfold State.step at stepped
      split at stepped
      · cases stepped
      · rw [idle] at stepped
        cases e with
        | shutdown =>
            obtain rfl := Option.some.inj stepped
            refine ⟨fun back => ?_, diverse⟩
            have was : s.phase = .running := back
            rw [phase] at was
            cases was
        | _ => simp [State.call, phase] at stepped

theorem detaches_of_keeps (tidy : s.Tidy) (running : s.phase = .running → Keeps s) : detaches s = true := by
  cases tidy with
  | client phase => exact (running phase).shut.detaches
  | relay phase => exact (running phase).shut.detaches
  | exiting _ idle => simp [detaches, idle]
  | done _ idle => simp [detaches, idle]

end Runs
end TorJet.Pool
