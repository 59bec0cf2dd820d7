import Mathlib.Algebra.Group.Nat.Defs
import Mathlib.Logic.Function.Basic
import Mathlib.Data.List.Nodup
import Mathlib.Data.List.Sort
import TorJet.Base.Machine

/-!
# The circuit health monitor

`CircuitWatchLoop` closes legs by counters that it keeps between passes. A pass is one turn of its
loop; what the clock, `CONFLUX QUERY` and `CLOSECIRCUIT` answer there is up to the environment.
-/

namespace TorJet.Launcher
open Base

/-- A leg as `CONFLUX QUERY` reports it; `rttUs` is missing where it is not a positive number. -/
structure Observed where
  set : String
  circ : String
  linked : Bool
  rttUs : Option Nat
  deriving DecidableEq, Repr

def Observed.rated (leg : Observed) : Bool := leg.linked && leg.rttUs.isSome

structure WatchConfig where
  watchRttPct : Int
  watchStrikes : Int
  watchUnlinkedStrikes : Int
  watchUnlinkedGraceS : Int
  watchMaxPerPass : Int
  watchCooldownS : Int
  deriving DecidableEq, Repr

structure Candidate where
  circ : String
  rttUs : Nat
  set : String
  deriving DecidableEq, Repr

/-- What the unstable `List.Sort` by descending key makes of a list: some sorted arrangement of it. -/
structure Descending {α : Type} (key : α → Nat) where
  run : List α → List α
  perm : ∀ items, (run items).Perm items
  sorted : ∀ items, (run items).Pairwise fun a b => key b ≤ key a

structure Pass where
  cfg : WatchConfig
  warmup : Bool
  now : Nat
  query : Option (List Observed)
  byRtt : Descending (fun leg : String × Nat => leg.2)
  byWeakness : Descending Candidate.rttUs
  accepts : String → Bool

structure Record where
  cfg : WatchConfig
  legs : List Observed
  pctWeak : List String
  closedWeak : List String
  closedStuck : List String
  deriving DecidableEq, Repr

def Record.weakAt (r : Record) (circ : String) : Bool :=
  r.legs.any fun leg => leg.circ = circ && leg.rated && r.pctWeak.contains circ

def Record.stuckAt (r : Record) (circ : String) : Bool :=
  r.legs.any fun leg => leg.circ = circ && !leg.linked

structure Watch where
  weakStrikes : String → Nat
  unlinkedStrikes : String → Nat
  unlinkedFirstSeen : String → Option Nat
  lastClose : Option Nat
  history : List Record

namespace Watch
variable (s : Watch)

def purge (legs : List Observed) : Watch :=
  let live (circ : String) : Bool := legs.any (·.circ = circ)
  { s with
    weakStrikes := fun circ => if live circ then s.weakStrikes circ else 0
    unlinkedStrikes := fun circ => if live circ then s.unlinkedStrikes circ else 0
    unlinkedFirstSeen := fun circ => if live circ then s.unlinkedFirstSeen circ else none }

def allRtts (legs : List Observed) : List (String × Nat) :=
  legs.filterMap fun leg => if leg.linked then leg.rttUs.map (leg.circ, ·) else none

def keepCount (n : Nat) (pct : Int) : Nat := min (max (((n * pct).bmod (2 ^ 32) + 99) / 100).toNat 1) (n - 1)

def pctWeak (pass : Pass) (legs : List Observed) : List String :=
  let all := allRtts legs
  if 2 ≤ all.length then
    ((pass.byRtt.run all).take (keepCount all.length pass.cfg.watchRttPct)).map (·.1)
  else []

def setLinked (legs : List Observed) (set : String) : Nat :=
  legs.countP fun leg => leg.linked && leg.set = set

abbrev Found := Watch × List Candidate × List Candidate

def classify (pass : Pass) (weakIds : List String) (found : Found) (leg : Observed) : Found :=
  let (s, weak, stuck) := found
  match leg.linked, leg.rttUs with
  | true, some rttUs =>
      let strike := if weakIds.contains leg.circ then s.weakStrikes leg.circ + 1 else 0
      let s :=
        { s with
          weakStrikes := Function.update s.weakStrikes leg.circ strike
          unlinkedStrikes := Function.update s.unlinkedStrikes leg.circ 0
          unlinkedFirstSeen := Function.update s.unlinkedFirstSeen leg.circ none }
      if weakIds.contains leg.circ && pass.cfg.watchStrikes ≤ strike then
        (s, weak ++ [{ circ := leg.circ, rttUs := rttUs, set := leg.set }], stuck)
      else (s, weak, stuck)
  | true, none => found
  | false, _ =>
      let first := (s.unlinkedFirstSeen leg.circ).getD pass.now
      let unStrike := s.unlinkedStrikes leg.circ + 1
      let s :=
        { s with
          unlinkedFirstSeen := Function.update s.unlinkedFirstSeen leg.circ (some first)
          unlinkedStrikes := Function.update s.unlinkedStrikes leg.circ unStrike }
      let young : Bool := (pass.now : Int) - first < pass.cfg.watchUnlinkedGraceS
      if !pass.warmup && !young && pass.cfg.watchUnlinkedStrikes ≤ unStrike then
        (s, weak, stuck ++ [{ circ := leg.circ, rttUs := 0, set := leg.set }])
      else (s, weak, stuck)

def pickWeak (max : Int) (linked : String → Nat) (picked : List Candidate) :
    List Candidate → List Candidate
  | [] => picked
  | leg :: rest =>
      if max ≤ picked.length then picked
      else if 0 < linked leg.set then
        pickWeak max (Function.update linked leg.set (linked leg.set - 1)) (picked ++ [leg]) rest
      else pickWeak max linked picked rest

def pickStuck (max : Int) (already : Nat) (stuck : List Candidate) : List Candidate :=
  stuck.take (max - already).toNat

def close (pass : Pass) (legs : List Observed) (weakIds : List String)
    (weak stuck : List Candidate) : Watch :=
  let toRemove := pickWeak pass.cfg.watchMaxPerPass (setLinked legs) [] (pass.byWeakness.run weak)
  let dead := pickStuck pass.cfg.watchMaxPerPass toRemove.length stuck
  let closed := ((toRemove ++ dead).map (·.circ)).filter pass.accepts
  { s with
    weakStrikes := fun circ => if closed.contains circ then 0 else s.weakStrikes circ
    unlinkedStrikes := fun circ => if (dead.map (·.circ)).contains circ then 0 else s.unlinkedStrikes circ
    lastClose := if closed.isEmpty then s.lastClose else some pass.now
    history :=
      { cfg := pass.cfg
        legs := legs
        pctWeak := weakIds
        closedWeak := (toRemove.map (·.circ)).filter pass.accepts
        closedStuck := (dead.map (·.circ)).filter pass.accepts } :: s.history }

def evaluate (pass : Pass) (legs : List Observed) : Watch :=
  let weakIds := pctWeak pass legs
  let (s, weak, stuck) := legs.foldl (classify pass weakIds) (s, [], [])
  s.close pass legs weakIds weak stuck

def cooling (pass : Pass) : Bool :=
  !pass.warmup && s.lastClose.any fun last => (pass.now : Int) - last < pass.cfg.watchCooldownS

/-- One turn of the loop of `CircuitWatchLoop`. -/
def pass (pass : Pass) : Watch :=
  if s.cooling pass then s
  else match pass.query with
    | none => s
    | some legs =>
        if pass.cfg.watchRttPct ≤ 0 then s.purge legs else (s.purge legs).evaluate pass legs

def machine : Machine Watch Pass where
  step s e := some (s.pass e)

def initial : Watch where
  weakStrikes := fun _ => 0
  unlinkedStrikes := fun _ => 0
  unlinkedFirstSeen := fun _ => none
  lastClose := none
  history := []

/-! ## Strikes are consecutive -/

/-- The latest `n` passes all passed the test. -/
def Backs (past : List Record) (test : Record → String → Bool) (n : Nat) (circ : String) : Prop :=
  n ≤ past.length ∧ ∀ r ∈ past.take n, test r circ = true

section Backs
variable {past : List Record} {test : Record → String → Bool} {n m : Nat} {circ : String} {r : Record}

theorem Backs.zero : Backs past test 0 circ := ⟨Nat.zero_le _, by simp⟩

theorem Backs.succ (h : Backs past test n circ) (now : test r circ = true) :
    Backs (r :: past) test (n + 1) circ := by
  refine ⟨by simpa using h.1, fun q mem => ?_⟩
  rw [List.take_succ_cons, List.mem_cons] at mem
  rcases mem with rfl | old
  · exact now
  · exact h.2 q old

theorem Backs.mono (h : Backs past test n circ) (le : m ≤ n) : Backs past test m circ :=
  ⟨Nat.le_trans le h.1, fun r mem => h.2 r ((List.take_subset_take_left past le) mem)⟩

end Backs

structure Sound (s : Watch) : Prop where
  weak : ∀ circ, Backs s.history Record.weakAt (s.weakStrikes circ) circ
  stuck : ∀ circ, Backs s.history Record.stuckAt (s.unlinkedStrikes circ) circ
  closedWeak : ∀ r older, r :: older <:+ s.history → ∀ circ ∈ r.closedWeak,
    Backs (r :: older) Record.weakAt r.cfg.watchStrikes.toNat circ
  closedStuck : ∀ r older, r :: older <:+ s.history → ∀ circ ∈ r.closedStuck,
    Backs (r :: older) Record.stuckAt r.cfg.watchUnlinkedStrikes.toNat circ

def Settled (s : Watch) (leg : Observed) : Prop :=
  (leg.rated = false → s.weakStrikes leg.circ = 0) ∧
    (leg.linked = true → leg.rated = false → s.unlinkedStrikes leg.circ = 0)

instance (s : Watch) (leg : Observed) : Decidable (s.Settled leg) := inferInstanceAs (Decidable (_ ∧ _))

/-- What classifying the legs of `circs` leaves, with `r` the record of the pass. -/
structure Classified (pass : Pass) (r : Record) (circs : List String) (before after : Found) : Prop where
  history : after.1.history = before.1.history
  elsewhere : ∀ circ ∉ circs, after.1.weakStrikes circ = before.1.weakStrikes circ ∧
    after.1.unlinkedStrikes circ = before.1.unlinkedStrikes circ
  here : ∀ circ ∈ circs, Backs (r :: before.1.history) Record.weakAt (after.1.weakStrikes circ) circ ∧
    Backs (r :: before.1.history) Record.stuckAt (after.1.unlinkedStrikes circ) circ
  weak : ∀ cand ∈ after.2.1, cand ∈ before.2.1 ∨
    cand.circ ∈ circs ∧ pass.cfg.watchStrikes ≤ after.1.weakStrikes cand.circ
  stuck : ∀ cand ∈ after.2.2, cand ∈ before.2.2 ∨
    cand.circ ∈ circs ∧ pass.cfg.watchUnlinkedStrikes ≤ after.1.unlinkedStrikes cand.circ

theorem Classified.cons {pass : Pass} {r : Record} {circ : String} {circs : List String}
    {before mid after : Found} (new : circ ∉ circs) (first : Classified pass r [circ] before mid)
    (rest : Classified pass r circs mid after) : Classified pass r (circ :: circs) before after where
  history := rest.history.trans first.history
  elsewhere other notMem := by
    rw [List.mem_cons, not_or] at notMem
    obtain ⟨weak, stuck⟩ := rest.elsewhere other notMem.2
    rw [weak, stuck]
    exact first.elsewhere other (by simpa using notMem.1)
  here other mem := by
    rcases List.mem_cons.mp mem with rfl | mem
    · obtain ⟨weak, stuck⟩ := rest.elsewhere other new
      rw [weak, stuck]
      exact first.here other (List.mem_singleton_self other)
    · rw [← first.history]
      exact rest.here other mem
  weak cand isWeak := by
    rcases rest.weak cand isWeak with old | ⟨mem, enough⟩
    · rcases first.weak cand old with old | ⟨mem, enough⟩
      · exact .inl old
      · have same := (rest.elsewhere cand.circ (List.mem_singleton.mp mem ▸ new)).1
        exact .inr ⟨List.mem_cons.mpr (.inl (List.mem_singleton.mp mem)), by rwa [same]⟩
    · exact .inr ⟨List.mem_cons_of_mem _ mem, enough⟩
  stuck cand isStuck := by
    rcases rest.stuck cand isStuck with old | ⟨mem, enough⟩
    · rcases first.stuck cand old with old | ⟨mem, enough⟩
      · exact .inl old
      · have same := (rest.elsewhere cand.circ (List.mem_singleton.mp mem ▸ new)).2
        exact .inr ⟨List.mem_cons.mpr (.inl (List.mem_singleton.mp mem)), by rwa [same]⟩
    · exact .inr ⟨List.mem_cons_of_mem _ mem, enough⟩

section Classify
variable (pass : Pass) {r : Record} {s : Watch} (weak stuck : List Candidate) {leg : Observed}

theorem classify_leg (mem : leg ∈ r.legs) (settled : s.Settled leg)
    (weakBacked : Backs s.history Record.weakAt (s.weakStrikes leg.circ) leg.circ)
    (stuckBacked : Backs s.history Record.stuckAt (s.unlinkedStrikes leg.circ) leg.circ) :
    Classified pass r [leg.circ] (s, weak, stuck) (classify pass r.pctWeak (s, weak, stuck) leg) := by
  obtain ⟨noWeak, noStuck⟩ := settled
  cases linked : leg.linked with
  | true =>
      cases rated : leg.rttUs with
      | some rttUs =>
          have counted : Backs (r :: s.history) Record.weakAt
              (if r.pctWeak.contains leg.circ then s.weakStrikes leg.circ + 1 else 0) leg.circ := by
            split
            · rename_i isWeak
              refine weakBacked.succ ?_
              simp only [Record.weakAt, List.any_eq_true, Bool.and_eq_true, decide_eq_true_eq]
              exact ⟨leg, mem, ⟨rfl, by simp [Observed.rated, linked, rated]⟩, isWeak⟩
            · exact .zero
          simp only [classify, linked, rated]
          generalize (if r.pctWeak.contains leg.circ then s.weakStrikes leg.circ + 1 else 0) = strike
            at counted ⊢
          split
          · rename_i enough
            rw [Bool.and_eq_true, decide_eq_true_eq] at enough
            constructor
            case weak =>
              intro cand isWeak
              rcases List.mem_append.mp isWeak with old | new
              · exact .inl old
              · obtain rfl := List.mem_singleton.mp new
                exact .inr (by simpa using enough.2)
            all_goals simp_all [Function.update_apply, Backs.zero]
          · constructor <;> simp_all [Function.update_apply, Backs.zero]
      | none =>
          -- the counters stay, and there is nothing in them
          have notRated : leg.rated = false := by simp [Observed.rated, rated]
          have weakZero := noWeak notRated
          have stuckZero := noStuck linked notRated
          simp only [classify, linked, rated]
          constructor <;> simp_all [Backs.zero]
  | false =>
      have weakZero := noWeak (by simp [Observed.rated, linked])
      have now : r.stuckAt leg.circ = true := by
        simp only [Record.stuckAt, List.any_eq_true, Bool.and_eq_true, decide_eq_true_eq]
        exact ⟨leg, mem, rfl, by simp [linked]⟩
      have counted := stuckBacked.succ now
      simp only [classify, linked]
      split
      · rename_i enough
        rw [Bool.and_eq_true, decide_eq_true_eq] at enough
        constructor
        case stuck =>
          intro cand isStuck
          rcases List.mem_append.mp isStuck with old | new
          · exact .inl old
          · obtain rfl := List.mem_singleton.mp new
            exact .inr (by simpa using enough.2)
        all_goals simp_all [Function.update_apply, Backs.zero]
      · constructor <;> simp_all [Function.update_apply, Backs.zero]

theorem classify_all {legs : List Observed} (sub : ∀ leg ∈ legs, leg ∈ r.legs)
    (nodup : (legs.map (·.circ)).Nodup) (settled : ∀ leg ∈ legs, s.Settled leg)
    (weakBacked : ∀ leg ∈ legs, Backs s.history Record.weakAt (s.weakStrikes leg.circ) leg.circ)
    (stuckBacked : ∀ leg ∈ legs, Backs s.history Record.stuckAt (s.unlinkedStrikes leg.circ) leg.circ) :
    Classified pass r (legs.map (·.circ)) (s, weak, stuck)
      (legs.foldl (classify pass r.pctWeak) (s, weak, stuck)) := by
  induction legs generalizing s weak stuck with
  | nil => constructor <;> simp
  | cons leg rest ih =>
      rw [List.map_cons, List.nodup_cons] at nodup
      rw [List.forall_mem_cons] at sub settled weakBacked stuckBacked
      have first := classify_leg pass weak stuck sub.1 settled.1 weakBacked.1 stuckBacked.1
      rw [List.foldl_cons]
      generalize classify pass r.pctWeak (s, weak, stuck) leg = mid at first ⊢
      obtain ⟨t, weak', stuck'⟩ := mid
      have same (other : Observed) (mem : other ∈ rest) :
          t.weakStrikes other.circ = s.weakStrikes other.circ ∧
            t.unlinkedStrikes other.circ = s.unlinkedStrikes other.circ := by
        refine first.elsewhere other.circ fun eq => nodup.1 ?_
        rw [← List.mem_singleton.mp eq]
        exact List.mem_map_of_mem mem
      have history : t.history = s.history := first.history
      refine first.cons nodup.1 (ih (s := t) weak' stuck' sub.2 nodup.2
        (fun other mem => ?_) (fun other mem => ?_) fun other mem => ?_)
      · rw [Settled, (same other mem).1, (same other mem).2]
        exact settled.2 other mem
      · rw [history, (same other mem).1]
        exact weakBacked.2 other mem
      · rw [history, (same other mem).2]
        exact stuckBacked.2 other mem

end Classify

variable {s}

theorem pickWeak_subset (max : Int) (linked : String → Nat) (picked legs : List Candidate) :
    ∀ cand ∈ pickWeak max linked picked legs, cand ∈ picked ∨ cand ∈ legs := by
  induction legs generalizing linked picked with
  | nil => exact fun cand mem => .inl mem
  | cons leg rest ih =>
      intro cand mem
      unfold pickWeak at mem
      split at mem
      · exact .inl mem
      · split at mem
        · rcases ih _ _ cand mem with old | later
          · rw [List.mem_append, List.mem_singleton] at old
            rcases old with old | rfl
            · exact .inl old
            · exact .inr (List.mem_cons_self ..)
          · exact .inr (List.mem_cons_of_mem _ later)
        · exact (ih _ _ cand mem).imp_right (List.mem_cons_of_mem _)

theorem purge_sound (h : Sound s) (legs : List Observed) : Sound (s.purge legs) where
  weak circ := by
    dsimp only [purge]
    split
    · exact h.weak circ
    · exact .zero
  stuck circ := by
    dsimp only [purge]
    split
    · exact h.stuck circ
    · exact .zero
  closedWeak := h.closedWeak
  closedStuck := h.closedStuck

theorem close_spec (t : Watch) (pass : Pass) (legs : List Observed) (weakIds : List String)
    (weak stuck : List Candidate) :
    ∃ r, (t.close pass legs weakIds weak stuck).history = r :: t.history ∧
      r.cfg = pass.cfg ∧ r.legs = legs ∧ r.pctWeak = weakIds ∧
      (∀ circ ∈ r.closedWeak, ∃ cand ∈ weak, cand.circ = circ) ∧
      (∀ circ ∈ r.closedStuck, ∃ cand ∈ stuck, cand.circ = circ) ∧
      ∀ circ, ((t.close pass legs weakIds weak stuck).weakStrikes circ = 0 ∨
          (t.close pass legs weakIds weak stuck).weakStrikes circ = t.weakStrikes circ) ∧
        ((t.close pass legs weakIds weak stuck).unlinkedStrikes circ = 0 ∨
          (t.close pass legs weakIds weak stuck).unlinkedStrikes circ = t.unlinkedStrikes circ) := by
  refine ⟨_, rfl, rfl, rfl, rfl, fun circ mem => ?_, fun circ mem => ?_, fun circ => ⟨?_, ?_⟩⟩
  · obtain ⟨cand, isPicked, rfl⟩ := List.mem_map.mp (List.mem_filter.mp mem).1
    rcases pickWeak_subset _ _ _ _ cand isPicked with none | isWeak
    · cases none
    · exact ⟨cand, (pass.byWeakness.perm weak).subset isWeak, rfl⟩
  · obtain ⟨cand, isPicked, rfl⟩ := List.mem_map.mp (List.mem_filter.mp mem).1
    exact ⟨cand, List.mem_of_mem_take isPicked, rfl⟩
  · dsimp only [close]
    split
    · exact .inl rfl
    · exact .inr rfl
  · dsimp only [close]
    split
    · exact .inl rfl
    · exact .inr rfl

theorem evaluate_sound (h : Sound s) (pass : Pass) {legs : List Observed}
    (nodup : (legs.map (·.circ)).Nodup) (settled : ∀ leg ∈ legs, s.Settled leg)
    (gone : ∀ circ ∉ legs.map (·.circ), s.weakStrikes circ = 0 ∧ s.unlinkedStrikes circ = 0) :
    Sound (s.evaluate pass legs) := by
  have classified (r : Record) (isLegs : r.legs = legs) (isWeak : r.pctWeak = pctWeak pass legs) :=
    classify_all pass (r := r) [] [] (fun leg mem => isLegs ▸ mem) nodup settled
      (fun leg _ => h.weak leg.circ) fun leg _ => h.stuck leg.circ
  have split : s.evaluate pass legs =
      (legs.foldl (classify pass (pctWeak pass legs)) (s, [], [])).1.close pass legs (pctWeak pass legs)
        (legs.foldl (classify pass (pctWeak pass legs)) (s, [], [])).2.1
        (legs.foldl (classify pass (pctWeak pass legs)) (s, [], [])).2.2 := rfl
  obtain ⟨r, history, cfg, isLegs, isWeak, closedWeak, closedStuck, counters⟩ :=
    close_spec (legs.foldl (classify pass (pctWeak pass legs)) (s, [], [])).1 pass legs
      (pctWeak pass legs) (legs.foldl (classify pass (pctWeak pass legs)) (s, [], [])).2.1
      (legs.foldl (classify pass (pctWeak pass legs)) (s, [], [])).2.2
  have done := classified r isLegs isWeak
  rw [isWeak] at done
  rw [split]
  generalize legs.foldl (classify pass (pctWeak pass legs)) (s, [], []) = found at *
  obtain ⟨t, weak, stuck⟩ := found
  have kept : t.history = s.history := done.history
  rw [kept] at history
  have backed (circ : String) : Backs (r :: s.history) Record.weakAt (t.weakStrikes circ) circ ∧
      Backs (r :: s.history) Record.stuckAt (t.unlinkedStrikes circ) circ := by
    by_cases present : circ ∈ legs.map (·.circ)
    · exact done.here circ present
    · obtain ⟨weakSame, stuckSame⟩ := done.elsewhere circ present
      obtain ⟨weakZero, stuckZero⟩ := gone circ present
      dsimp only at weakSame stuckSame
      rw [weakSame, stuckSame, weakZero, stuckZero]
      exact ⟨.zero, .zero⟩
  constructor
  · intro circ
    rw [history]
    rcases (counters circ).1 with zero | same
    · rw [zero]
      exact .zero
    · rw [same]
      exact (backed circ).1
  · intro circ
    rw [history]
    rcases (counters circ).2 with zero | same
    · rw [zero]
      exact .zero
    · rw [same]
      exact (backed circ).2
  · intro q older suffix circ isClosed
    rw [history] at suffix
    rcases List.suffix_cons_iff.mp suffix with latest | earlier
    · obtain ⟨rfl, rfl⟩ := List.cons.inj latest
      obtain ⟨cand, mem, rfl⟩ := closedWeak circ isClosed
      rcases done.weak cand mem with none | ⟨-, enough⟩
      · cases none
      · refine (backed cand.circ).1.mono ?_
        rw [cfg]
        exact Int.toNat_le.mpr enough
    · exact h.closedWeak q older earlier circ isClosed
  · intro q older suffix circ isClosed
    rw [history] at suffix
    rcases List.suffix_cons_iff.mp suffix with latest | earlier
    · obtain ⟨rfl, rfl⟩ := List.cons.inj latest
      obtain ⟨cand, mem, rfl⟩ := closedStuck circ isClosed
      rcases done.stuck cand mem with none | ⟨-, enough⟩
      · cases none
      · refine (backed cand.circ).2.mono ?_
        rw [cfg]
        exact Int.toNat_le.mpr enough
    · exact h.closedStuck q older earlier circ isClosed

def clean (s : Watch) (pass : Pass) : Bool :=
  pass.query.all fun legs =>
    pass.cfg.watchRttPct ≤ 0 || (legs.map (·.circ)).Nodup && legs.all fun leg => s.Settled leg

theorem pass_sound (h : Sound s) {e : Pass} (ok : s.clean e = true) : Sound (s.pass e) := by
  unfold pass
  split
  · exact h
  · cases query : e.query with
    | none => exact h
    | some legs =>
        have purged := purge_sound h legs
        dsimp only
        split
        · exact purged
        · rename_i evaluated
          rw [clean, query, Option.all_some, Bool.or_eq_true, decide_eq_true_eq, Bool.and_eq_true,
            decide_eq_true_eq, List.all_eq_true] at ok
          obtain ⟨nodup, settled⟩ := ok.resolve_left evaluated
          refine evaluate_sound purged e nodup (fun leg mem => ?_) fun circ notMem => ?_
          · have isLive : (legs.any fun other => other.circ = leg.circ) = true := by
              rw [List.any_eq_true]
              exact ⟨leg, mem, by simp⟩
            have old : s.Settled leg := by simpa using settled leg mem
            simpa only [Settled, purge, isLive, if_true] using old
          · have notLive : (legs.any fun other => other.circ = circ) = false := by
              rw [List.any_eq_false]
              intro leg mem same
              exact notMem (List.mem_map.mpr ⟨leg, mem, by simpa using same⟩)
            simp only [purge, notLive, Bool.false_eq_true, if_false, and_self]

theorem initial_sound : Sound initial where
  weak _ := .zero
  stuck _ := .zero
  closedWeak _ _ suffix := by cases List.suffix_nil.mp suffix
  closedStuck _ _ suffix := by cases List.suffix_nil.mp suffix

/-- A leg is closed as weak, or as stuck, only after as many passes in a row as are asked for. -/
theorem closes_follow_strikes {s : Watch}
    (reach : machine.Reach (fun s e => s.clean e = true) initial s) {r : Record} {older : List Record}
    (suffix : r :: older <:+ s.history) :
    (∀ circ ∈ r.closedWeak, Backs (r :: older) Record.weakAt r.cfg.watchStrikes.toNat circ) ∧
      ∀ circ ∈ r.closedStuck, Backs (r :: older) Record.stuckAt r.cfg.watchUnlinkedStrikes.toNat circ := by
  have sound : Sound s := by
    refine reach.invariant initial_sound fun s e t h ok action => ?_
    obtain rfl := Option.some.inj action
    exact pass_sound h ok
  exact ⟨sound.closedWeak r older suffix, sound.closedStuck r older suffix⟩

def byInsertion {α : Type} (key : α → Nat) : Descending key where
  run items := items.insertionSort fun a b => key b ≤ key a
  perm items := items.perm_insertionSort _
  sorted items := items.pairwise_insertionSort _

/-- A pass at `now` under two strikes that finds half of the pool weak. -/
def passAt (now : Nat) (legs : List Observed) : Pass where
  cfg :=
    { watchRttPct := 50
      watchStrikes := 2
      watchUnlinkedStrikes := 4
      watchUnlinkedGraceS := 120
      watchMaxPerPass := 6
      watchCooldownS := 20 }
  warmup := false
  now := now
  query := some legs
  byRtt := byInsertion _
  byWeakness := byInsertion _
  accepts := fun _ => true

def linkedLeg (circ : String) (rttUs : Nat) : Observed := ⟨"S", circ, true, some rttUs⟩

theorem weak_leg_closed_after_two :
    ∃ s r older, machine.Reach (fun s e => s.clean e = true) initial s ∧ r :: older <:+ s.history ∧
      r.closedWeak = ["7"] ∧ Backs (r :: older) Record.weakAt 2 "7" := by
  obtain ⟨s, reach, found⟩ := Machine.exists_of_run machine (fun s e => s.clean e = true) initial
    (P := fun s => s.history.head?.any (fun r => r.closedWeak = ["7"] ∧ r.cfg.watchStrikes = 2) = true)
    [passAt 10 [linkedLeg "7" 900, linkedLeg "8" 100], passAt 20 [linkedLeg "7" 900, linkedLeg "8" 100]]
    (by decide +kernel)
  obtain ⟨r, head, closed⟩ := (Option.any_eq_true _ _).mp found
  obtain ⟨older, eq⟩ := List.head?_eq_some_iff.mp head
  obtain ⟨isClosed, strikes⟩ := of_decide_eq_true closed
  have suffix : r :: older <:+ s.history := eq ▸ List.suffix_refl _
  have backed := (closes_follow_strikes reach suffix).1 "7" (by simp [isClosed])
  rw [strikes] at backed
  exact ⟨s, r, older, reach, suffix, isClosed, backed⟩

/-- A leg that was weak once, then unlinked, is closed at the next weak pass. -/
theorem weak_leg_closed_early :
    ∃ s r older, machine.Reach (fun _ _ => True) initial s ∧ r :: older <:+ s.history ∧
      ∃ circ ∈ r.closedWeak, ¬ Backs (r :: older) Record.weakAt r.cfg.watchStrikes.toNat circ := by
  obtain ⟨s, reach, found⟩ := Machine.exists_of_run machine (fun _ _ => True) initial
    (P := fun s => s.history.head?.any (fun r => r.closedWeak = ["7"] ∧ r.cfg.watchStrikes = 2) = true ∧
      s.history.tail.head?.any (fun r => !r.weakAt "7") = true)
    [passAt 10 [linkedLeg "7" 900, linkedLeg "8" 100],
      passAt 20 [⟨"S", "7", false, none⟩, linkedLeg "8" 100],
      passAt 30 [linkedLeg "7" 900, linkedLeg "8" 100]]
    (by decide +kernel)
  obtain ⟨r, head, closed⟩ := (Option.any_eq_true _ _).mp found.1
  obtain ⟨q, next, notWeak⟩ := (Option.any_eq_true _ _).mp found.2
  obtain ⟨older, eq⟩ := List.head?_eq_some_iff.mp head
  obtain ⟨isClosed, strikes⟩ := of_decide_eq_true closed
  rw [eq, List.tail_cons] at next
  obtain ⟨oldest, rfl⟩ := List.head?_eq_some_iff.mp next
  refine ⟨s, r, q :: oldest, reach, eq ▸ List.suffix_refl _, "7", by simp [isClosed], fun backed => ?_⟩
  rw [strikes] at backed
  have := backed.2 q (by simp)
  simp [this] at notWeak

end Watch
end TorJet.Launcher
