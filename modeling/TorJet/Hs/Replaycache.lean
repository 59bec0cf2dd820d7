import Mathlib.Data.List.Sort
import Mathlib.Logic.Function.Basic
import Mathlib.Tactic.ByContra

/-!
# The replay cache

`feature/hs_common/replaycache.c`: the introductions that a service has seen, by their digests.
-/

namespace TorJet.Hs

/-- `replaycache_t`; `digestsSeen` gives the access time of a digest. -/
structure Replaycache (δ : Type) where
  scrubInterval : Int
  scrubbed : Int
  horizon : Int
  digestsSeen : δ → Option Int

section Source
variable {δ : Type} [DecidableEq δ]

/-- `replaycache_new` -/
def replaycacheNew (horizon interval : Int) : Option (Replaycache δ) :=
  if horizon < 0 then none else some ⟨if interval < 0 then 0 else interval, 0, horizon, fun _ => none⟩

/-- `replaycache_scrub_if_needed_internal` -/
def scrubIfNeeded (present : Int) (r : Replaycache δ) : Replaycache δ :=
  if present - r.scrubbed < r.scrubInterval ∧ 0 < r.scrubbed then r
  else if r.horizon = 0 then r
  else
    { r with
      digestsSeen := fun d => (r.digestsSeen d).filter fun accessTime => ¬ accessTime < present - r.horizon
      scrubbed := max r.scrubbed present }

/-- `replaycache_add_and_test_internal` of data with this digest, `none` for no data: the result is `elapsed` for a hit. -/
def addAndTest (present : Int) (r : Replaycache δ) (digest : Option δ) : Replaycache δ × Option Int :=
  match digest with
  | none => (r, none)
  | some d =>
      if present ≤ 0 then (r, none)
      else match r.digestsSeen d with
        | some accessTime =>
            let hit := present - r.horizon ≤ accessTime ∨ r.horizon = 0
            let elapsed := if accessTime ≤ present then present - accessTime else 0
            (scrubIfNeeded present
              { r with digestsSeen := Function.update r.digestsSeen d (some (max accessTime present)) },
              if hit then some elapsed else none)
        | none =>
            (scrubIfNeeded present { r with digestsSeen := Function.update r.digestsSeen d (some present) }, none)

/-- A test of data: its time and its digest -/
abbrev Test (δ : Type) := Int × δ

/-- The cache after tests, the latest first -/
def after (r : Replaycache δ) : List (Test δ) → Replaycache δ
  | [] => r
  | (present, d) :: before => (addAndTest present (after r before) (some d)).1

/-- When a digest was last seen -/
def lastSeen (tests : List (Test δ)) (d : δ) : Option Int := (tests.find? fun test => test.2 = d).map Prod.fst

end Source

section Runs
variable {δ : Type} [DecidableEq δ] {r : Replaycache δ} {tests : List (Test δ)} {horizon interval present : Int} {d : δ}

/-- Times do not go back, and are after the epoch. -/
def Clocked (tests : List (Test δ)) : Prop := (tests.map Prod.fst).Pairwise (· ≥ ·) ∧ ∀ test ∈ tests, 0 < test.1

/-- What the cache holds is what was last seen, but for what the horizon has passed. -/
structure Remembers (horizon : Int) (tests : List (Test δ)) (r : Replaycache δ) : Prop where
  config : r.horizon = horizon
  seen : ∀ d time, r.digestsSeen d = some time → lastSeen tests d = some time
  kept : ∀ d time, lastSeen tests d = some time → r.digestsSeen d = some time ∨
    horizon ≠ 0 ∧ ∃ test ∈ tests.head?, time < test.1 - horizon
  scrubbed : 0 < r.scrubbed → ∀ d time, r.digestsSeen d = some time → r.scrubbed - horizon ≤ time
  past : r.scrubbed = 0 ∨ ∃ test ∈ tests.head?, r.scrubbed ≤ test.1

omit [DecidableEq δ] in
theorem Clocked.tail {test : Test δ} (clocked : Clocked (test :: tests)) : Clocked tests :=
  ⟨clocked.1.of_cons, fun t mem => clocked.2 t (List.mem_cons_of_mem _ mem)⟩

theorem lastSeen_le {test : Test δ} (clocked : Clocked (test :: tests)) {time : Int}
    (seen : lastSeen tests d = some time) :
    time ≤ test.1 := by
  obtain ⟨t, found, rfl⟩ := Option.map_eq_some_iff.mp seen
  exact (List.pairwise_cons.mp clocked.1).1 _ (List.mem_map_of_mem (List.mem_of_find?_eq_some found))

theorem lastSeen_cons (test : Test δ) (tests : List (Test δ)) (d : δ) :
    lastSeen (test :: tests) d = Function.update (lastSeen tests) test.2 (some test.1) d := by
  by_cases same : test.2 = d
  · subst same
    simp [lastSeen]
  · rw [Function.update_of_ne (Ne.symm same), lastSeen, List.find?_cons_of_neg (by simpa using same), lastSeen]

/-- The digest's time is set to the present one, whether it was there or not. -/
theorem addAndTest_cache (remembers : Remembers horizon tests r) (clocked : Clocked ((present, d) :: tests)) :
    (addAndTest present r (some d)).1 =
      scrubIfNeeded present { r with digestsSeen := Function.update r.digestsSeen d (some present) } := by
  have later := clocked.2 _ List.mem_cons_self
  rw [addAndTest, if_neg (Int.not_le.mpr later)]
  cases found : r.digestsSeen d with
  | none => rfl
  | some accessTime =>
      have past := lastSeen_le clocked (remembers.seen d accessTime found)
      simp only [Int.max_eq_right past]

theorem Remembers.update (positive : 0 ≤ horizon) (remembers : Remembers horizon tests r)
    (clocked : Clocked ((present, d) :: tests)) : Remembers horizon ((present, d) :: tests)
      { r with digestsSeen := Function.update r.digestsSeen d (some present) } := by
  have later := clocked.2 _ List.mem_cons_self
  have head (test : Test δ) (mem : test ∈ tests.head?) : test.1 ≤ present :=
    (List.pairwise_cons.mp clocked.1).1 _ (List.mem_map_of_mem (List.mem_of_mem_head? mem))
  have scrubbed : r.scrubbed ≤ present := by
    rcases remembers.past with none | ⟨test, mem, le⟩
    · exact none ▸ Int.le_of_lt later
    · exact Int.le_trans le (head test mem)
  constructor
  · exact remembers.config
  · intro d' time found
    rw [lastSeen_cons]
    dsimp only at found ⊢
    by_cases same : d' = d
    · rwa [same, Function.update_self] at found ⊢
    · rw [Function.update_of_ne same] at found ⊢
      exact remembers.seen d' time found
  · intro d' time found
    rw [lastSeen_cons] at found
    dsimp only at found ⊢
    by_cases same : d' = d
    · rw [same, Function.update_self] at found ⊢
      exact .inl found
    · rw [Function.update_of_ne same] at found ⊢
      rcases remembers.kept d' time found with there | ⟨expires, test, mem, old⟩
      · exact .inl there
      · have after := head test mem
        exact .inr ⟨expires, _, rfl, by dsimp only; omega⟩
  · intro some_ d' time found
    dsimp only at some_ found ⊢
    by_cases same : d' = d
    · rw [same, Function.update_self] at found
      have eq := Option.some.inj found
      omega
    · rw [Function.update_of_ne same] at found
      exact remembers.scrubbed some_ d' time found
  · exact .inr ⟨_, rfl, scrubbed⟩

/-- Scrubbing forgets only what the horizon has passed. -/
theorem Remembers.scrub {width : Int} (remembers : Remembers horizon ((present, d) :: tests) r) (later : 0 < present)
    (interval_ : r.scrubInterval = width) :
    Remembers horizon ((present, d) :: tests) (scrubIfNeeded present r) ∧
      (horizon = 0 ∨ 0 < (scrubIfNeeded present r).scrubbed ∧
        (present - (scrubIfNeeded present r).scrubbed < width ∨ (scrubIfNeeded present r).scrubbed = present)) := by
  have past : r.scrubbed ≤ present := by
    rcases remembers.past with none | ⟨test, mem, le⟩
    · exact none ▸ Int.le_of_lt later
    · obtain rfl := Option.some.inj mem
      exact le
  rw [scrubIfNeeded]
  split
  · rename_i recent
    exact ⟨remembers, .inr ⟨recent.2, .inl (interval_ ▸ recent.1)⟩⟩
  · split
    · rename_i never
      exact ⟨remembers, .inl (remembers.config ▸ never)⟩
    · rename_i expires
      rw [remembers.config] at expires ⊢
      rw [Int.max_eq_right past]
      refine ⟨⟨rfl, ?_, ?_, ?_, .inr ⟨_, rfl, Int.le_refl _⟩⟩, .inr ⟨later, .inr rfl⟩⟩
      · intro d' time found
        exact remembers.seen d' time (Option.filter_eq_some_iff.mp found).1
      · intro d' time found
        rcases remembers.kept d' time found with there | old
        · by_cases gone : time < present - horizon
          · exact .inr ⟨expires, _, rfl, gone⟩
          · exact .inl (Option.filter_eq_some_iff.mpr ⟨there, by simpa using gone⟩)
        · exact .inr old
      · intro _ d' time found
        have recent := (Option.filter_eq_some_iff.mp found).2
        simpa using recent

theorem Remembers.after (positive : 0 ≤ horizon) (new : replaycacheNew horizon interval = some r)
    (clocked : Clocked tests) :
    Remembers horizon tests (after r tests) ∧ (Hs.after r tests).scrubInterval = max interval 0 := by
  induction tests with
  | nil =>
      rw [replaycacheNew, if_neg (Int.not_lt.mpr positive)] at new
      obtain rfl := Option.some.inj new
      refine ⟨⟨rfl, ?_, ?_, ?_, .inl rfl⟩, ?_⟩
      · exact fun _ _ found => absurd found (by simp [Hs.after])
      · exact fun _ _ found => absurd found (by simp [lastSeen])
      · exact fun some_ => absurd some_ (Int.lt_irrefl 0)
      · dsimp only [Hs.after]
        split <;> omega
  | cons test before ih =>
      obtain ⟨remembers, same⟩ := ih clocked.tail
      have later := clocked.2 _ List.mem_cons_self
      rw [Hs.after, addAndTest_cache remembers clocked]
      refine ⟨((remembers.update positive clocked).scrub later rfl).1, ?_⟩
      rw [scrubIfNeeded]
      split
      · exact same
      · split <;> exact same

/-- Data is a replay exactly where the same digest was last seen within the horizon, and the cache keeps nothing longer
than the horizon and the interval together. -/
theorem replays_detected (positive : 0 ≤ horizon) (new : replaycacheNew horizon interval = some r)
    (clocked : Clocked ((present, d) :: tests)) :
    (∀ elapsed, (addAndTest present (after r tests) (some d)).2 = some elapsed ↔
      ∃ time, lastSeen tests d = some time ∧ (horizon = 0 ∨ present - horizon ≤ time) ∧ elapsed = present - time) ∧
    (horizon ≠ 0 → ∀ d' time, (addAndTest present (after r tests) (some d)).1.digestsSeen d' = some time →
      present - horizon - max interval 0 ≤ time) := by
  obtain ⟨remembers, same⟩ := Remembers.after positive new clocked.tail
  have later := clocked.2 _ List.mem_cons_self
  constructor
  · intro elapsed
    rw [addAndTest, if_neg (Int.not_le.mpr later)]
    cases found : (after r tests).digestsSeen d with
    | none =>
        constructor
        · intro hit
          cases hit
        · rintro ⟨time, seen, within, -⟩
          rcases remembers.kept d time seen with there | ⟨expires, test, mem, old⟩
          · rw [found] at there
            cases there
          · have le : test.1 ≤ present :=
              (List.pairwise_cons.mp clocked.1).1 _ (List.mem_map_of_mem (List.mem_of_mem_head? mem))
            omega
    | some accessTime =>
        have seen := remembers.seen d accessTime found
        have le : accessTime ≤ present := lastSeen_le clocked seen
        simp only [remembers.config, if_pos le]
        split
        · rename_i hit
          constructor
          · intro eq
            exact ⟨accessTime, seen, hit.symm, (Option.some.inj eq).symm⟩
          · rintro ⟨time, seen', -, rfl⟩
            rw [seen] at seen'
            rw [Option.some.inj seen']
        · rename_i miss
          constructor
          · intro eq
            cases eq
          · rintro ⟨time, seen', within, -⟩
            rw [seen] at seen'
            rw [Option.some.inj seen'] at miss
            exact absurd within.symm miss
  · intro expires d' time found
    rw [addAndTest_cache remembers clocked] at found
    obtain ⟨scrubbed, recent⟩ := (remembers.update positive clocked).scrub later same
    have some_ := recent.resolve_left expires
    have kept := scrubbed.scrubbed some_.1 d' time found
    omega

theorem replay_within_horizon :
    (addAndTest 60 (after ⟨10, 0, 100, fun _ : Nat => none⟩ [(50, 7), (20, 8)]) (some 7)).2 = some 10 :=
  ((replays_detected (by decide) (show replaycacheNew 100 10 = some _ from rfl) ⟨by decide, by decide⟩).1 10).mpr
    ⟨50, rfl, .inr (by decide), rfl⟩

end Runs

end TorJet.Hs
