import TorJet.Base.Least
import TorJet.Launcher.Monitor

/-!
# The legs a pass of the monitor picks

Which legs become candidates, which of them fit into one pass, and which legs no pass picks.
-/

namespace TorJet.Launcher
open Base

namespace Watch
variable (s : Watch)

def toRemove (pass : Pass) (legs : List Observed) (weak stuck : List Candidate) : List Candidate :=
  let weak := pickWeak pass.cfg.watchMaxPerPass (setLinked legs) [] (pass.byWeakness.run weak)
  weak ++ pickStuck pass.cfg.watchMaxPerPass weak.length stuck

/-- The circuits for which a pass sends `CLOSECIRCUIT`, in this order. -/
def commands (pass : Pass) : List String :=
  if s.cooling pass then []
  else match pass.query with
    | none => []
    | some legs =>
        if pass.cfg.watchRttPct ≤ 0 then []
        else
          let (_, weak, stuck) := legs.foldl (classify pass (pctWeak pass legs)) (s.purge legs, [], [])
          (toRemove pass legs weak stuck).map (·.circ)

def isWeak (pass : Pass) (legs : List Observed) (leg : Observed) : Bool :=
  leg.rated && (pctWeak pass legs).contains leg.circ && pass.cfg.watchStrikes ≤ s.weakStrikes leg.circ + 1

def young (pass : Pass) (leg : Observed) : Bool :=
  (pass.now : Int) - (s.unlinkedFirstSeen leg.circ).getD pass.now < pass.cfg.watchUnlinkedGraceS

def isStuck (pass : Pass) (leg : Observed) : Bool :=
  !leg.linked && !pass.warmup && !s.young pass leg &&
    pass.cfg.watchUnlinkedStrikes ≤ s.unlinkedStrikes leg.circ + 1

end Watch

def Observed.rtt (leg : Observed) : Nat := leg.rttUs.getD 0

def Observed.weakCandidate (leg : Observed) : Candidate := ⟨leg.circ, leg.rtt, leg.set⟩

def Observed.stuckCandidate (leg : Observed) : Candidate := ⟨leg.circ, 0, leg.set⟩

namespace Watch
variable {s t : Watch} {e : Pass} {legs : List Observed} {leg : Observed} {name : String}

/-! ## Classification -/

structure SameAt (s t : Watch) (circ : String) : Prop where
  weak : t.weakStrikes circ = s.weakStrikes circ
  unlinked : t.unlinkedStrikes circ = s.unlinkedStrikes circ
  seen : t.unlinkedFirstSeen circ = s.unlinkedFirstSeen circ

theorem SameAt.isWeak (same : SameAt s t leg.circ) : t.isWeak e legs leg = s.isWeak e legs leg := by
  rw [Watch.isWeak, Watch.isWeak, same.weak]

theorem SameAt.isStuck (same : SameAt s t leg.circ) : t.isStuck e leg = s.isStuck e leg := by
  rw [Watch.isStuck, Watch.isStuck, young, young, same.unlinked, same.seen]

theorem classify_sameAt (ids : List String) (weak stuck : List Candidate) (other : name ≠ leg.circ) :
    SameAt s (classify e ids (s, weak, stuck) leg).1 name := by
  cases linked : leg.linked with
  | true =>
      cases rated : leg.rttUs with
      | none =>
          simp only [classify, linked, rated]
          exact ⟨rfl, rfl, rfl⟩
      | some rttUs =>
          simp only [classify, linked, rated]
          generalize (if ids.contains leg.circ then s.weakStrikes leg.circ + 1 else 0) = strike
          split <;> exact ⟨Function.update_of_ne other _ _, Function.update_of_ne other _ _,
            Function.update_of_ne other _ _⟩
  | false =>
      simp only [classify, linked]
      split <;> exact ⟨rfl, Function.update_of_ne other _ _, Function.update_of_ne other _ _⟩

theorem classify_lists (s : Watch) (legs : List Observed) (leg : Observed) (weak stuck : List Candidate) :
    (classify e (pctWeak e legs) (s, weak, stuck) leg).2 =
      (weak ++ (if s.isWeak e legs leg then [leg.weakCandidate] else []),
        stuck ++ if s.isStuck e leg then [leg.stuckCandidate] else []) := by
  cases linked : leg.linked with
  | true =>
      have notStuck : s.isStuck e leg = false := by simp [isStuck, linked]
      rw [notStuck, if_neg Bool.false_ne_true, List.append_nil]
      cases rated : leg.rttUs with
      | none =>
          have notWeak : s.isWeak e legs leg = false := by simp [isWeak, Observed.rated, rated]
          rw [notWeak, if_neg Bool.false_ne_true, List.append_nil]
          simp only [classify, linked, rated]
      | some rttUs =>
          have candidate : leg.weakCandidate = ⟨leg.circ, rttUs, leg.set⟩ := by
            simp [Observed.weakCandidate, Observed.rtt, rated]
          simp only [classify, linked, rated, candidate, isWeak, Observed.rated, Option.isSome_some, Bool.and_self,
            Bool.true_and]
          cases marked : (pctWeak e legs).contains leg.circ with
          | false => simp
          | true =>
              simp only [if_pos, Bool.true_and, Int.natCast_add, Int.natCast_one]
              split
              · rfl
              · rw [List.append_nil]
  | false =>
      have notWeak : s.isWeak e legs leg = false := by simp [isWeak, Observed.rated, linked]
      rw [notWeak, if_neg Bool.false_ne_true, List.append_nil]
      simp only [classify, linked, isStuck, young, Bool.not_false, Bool.true_and, Int.natCast_add, Int.natCast_one]
      split
      · rfl
      · rw [List.append_nil]

theorem classifyAll_lists (s : Watch) (legs rest : List Observed) (nodup : (rest.map (·.circ)).Nodup) (weak stuck : List Candidate) :
    (rest.foldl (classify e (pctWeak e legs)) (s, weak, stuck)).2 =
      (weak ++ (rest.filter (s.isWeak e legs)).map Observed.weakCandidate,
        stuck ++ (rest.filter (s.isStuck e)).map Observed.stuckCandidate) := by
  induction rest generalizing s weak stuck with
  | nil => simp
  | cons leg rest ih =>
      rw [List.map_cons, List.nodup_cons] at nodup
      have lists := classify_lists (e := e) s legs leg weak stuck
      have same (other : Observed) (mem : other ∈ rest) :
          SameAt s (classify e (pctWeak e legs) (s, weak, stuck) leg).1 other.circ := by
        apply classify_sameAt
        intro equal
        apply nodup.1
        rw [← equal]
        exact List.mem_map_of_mem mem
      rw [List.foldl_cons]
      generalize classify e (pctWeak e legs) (s, weak, stuck) leg = mid at lists same ⊢
      obtain ⟨t, found⟩ := mid
      obtain rfl : found = _ := lists
      have weakSame : rest.filter (t.isWeak e legs) = rest.filter (s.isWeak e legs) :=
        List.filter_congr fun other mem => (same other mem).isWeak
      have stuckSame : rest.filter (t.isStuck e) = rest.filter (s.isStuck e) :=
        List.filter_congr fun other mem => (same other mem).isStuck
      rw [ih t nodup.2, weakSame, stuckSame, List.filter_cons, List.filter_cons]
      cases s.isWeak e legs leg <;> cases s.isStuck e leg <;> simp

/-! ## The budget -/

theorem pickWeak_eq {max : Int} {linked : String → Nat} {picked weak : List Candidate}
    (enough : ∀ set, weak.countP (fun leg => leg.set = set) ≤ linked set) :
    pickWeak max linked picked weak = picked ++ weak.take (max - picked.length).toNat := by
  induction weak generalizing linked picked with
  | nil => simp [pickWeak]
  | cons leg rest ih =>
      rw [pickWeak]
      split
      · rename_i full
        have none : (max - picked.length).toNat = 0 := by omega
        rw [none, List.take_zero, List.append_nil]
      · rename_i room
        have here : 0 < linked leg.set := by
          have := enough leg.set
          rw [List.countP_cons_of_pos (by simp)] at this
          omega
        rw [if_pos here, ih]
        · have count : (max - picked.length).toNat = (max - (picked ++ [leg]).length).toNat + 1 := by
            rw [List.length_append, List.length_singleton]
            omega
          rw [count, List.take_succ_cons, List.append_assoc]
          rfl
        · intro set
          have := enough set
          rw [List.countP_cons] at this
          rw [Function.update_apply]
          split
          · rename_i same
            subst same
            simp at this
            omega
          · rename_i other
            simp [Ne.symm other] at this
            exact this

theorem pickWeak_candidates (weak : List Candidate) (fits : weak.Perm ((legs.filter (s.isWeak e legs)).map Observed.weakCandidate)) :
    pickWeak e.cfg.watchMaxPerPass (setLinked legs) [] weak = weak.take e.cfg.watchMaxPerPass.toNat := by
  rw [pickWeak_eq]
  · simp
  · intro set
    rw [fits.countP_eq, List.countP_map, List.countP_filter, setLinked]
    apply List.countP_mono_left
    intro leg _ both
    simp only [Function.comp_apply, isWeak, Observed.rated, Bool.and_eq_true] at both
    rw [Bool.and_eq_true]
    exact ⟨both.2.1.1.1, both.1⟩

/-! ## The commands of a pass -/

theorem purge_sameAt (mem : leg ∈ legs) : SameAt s (s.purge legs) leg.circ := by
  have live : (legs.any fun other => other.circ = leg.circ) = true := by
    rw [List.any_eq_true]
    exact ⟨leg, mem, decide_eq_true rfl⟩
  constructor <;> simp only [purge, live, if_true]

def weakPicks (s : Watch) (e : Pass) (legs : List Observed) : List Candidate :=
  (e.byWeakness.run ((legs.filter (s.isWeak e legs)).map Observed.weakCandidate)).take e.cfg.watchMaxPerPass.toNat

def stuckPicks (s : Watch) (e : Pass) (legs : List Observed) : List Candidate :=
  ((legs.filter (s.isStuck e)).map Observed.stuckCandidate).take
    (e.cfg.watchMaxPerPass - (s.weakPicks e legs).length).toNat

def chooses (s : Watch) (e : Pass) : Bool := !s.cooling e && 0 < e.cfg.watchRttPct

theorem commands_idle (idle : s.chooses e = false) : s.commands e = [] := by
  rw [commands]
  split
  · rfl
  · rename_i active
    cases e.query with
    | none => rfl
    | some legs =>
        rw [chooses, Bool.eq_false_iff.mpr active, Bool.not_false, Bool.true_and, decide_eq_false_iff_not] at idle
        exact if_pos (by omega)

theorem commands_eq (query : e.query = some legs) (nodup : (legs.map (·.circ)).Nodup) (chooses : s.chooses e = true) :
    s.commands e = (s.weakPicks e legs ++ s.stuckPicks e legs).map (·.circ) := by
  rw [Watch.chooses, Bool.and_eq_true, Bool.not_eq_true', decide_eq_true_eq] at chooses
  have on : ¬ e.cfg.watchRttPct ≤ 0 := by omega
  have lists := classifyAll_lists (e := e) (s.purge legs) legs legs nodup [] []
  rw [commands, chooses.1, if_neg Bool.false_ne_true, query]
  dsimp only
  rw [if_neg on]
  generalize legs.foldl (classify e (pctWeak e legs)) (s.purge legs, [], []) = found at lists ⊢
  obtain ⟨t, weak, stuck⟩ := found
  rw [Prod.mk.injEq, List.nil_append, List.nil_append] at lists
  obtain ⟨rfl, rfl⟩ := lists
  have weakSame : legs.filter ((s.purge legs).isWeak e legs) = legs.filter (s.isWeak e legs) :=
    List.filter_congr fun leg mem => (purge_sameAt mem).isWeak
  have stuckSame : legs.filter ((s.purge legs).isStuck e) = legs.filter (s.isStuck e) :=
    List.filter_congr fun leg mem => (purge_sameAt mem).isStuck
  dsimp only
  rw [toRemove, weakSame, stuckSame, pickWeak_candidates (s := s) _ (e.byWeakness.perm _)]
  rfl

theorem mem_weakPicks {cand : Candidate} (picked : cand ∈ s.weakPicks e legs) :
    ∃ leg ∈ legs, s.isWeak e legs leg = true ∧ leg.weakCandidate = cand := by
  obtain ⟨leg, mem, rfl⟩ := List.mem_map.mp ((e.byWeakness.perm _).subset (List.mem_of_mem_take picked))
  obtain ⟨inLegs, weak⟩ := List.mem_filter.mp mem
  exact ⟨leg, inLegs, weak, rfl⟩

theorem mem_stuckPicks {cand : Candidate} (picked : cand ∈ s.stuckPicks e legs) :
    ∃ leg ∈ legs, s.isStuck e leg = true ∧ leg.stuckCandidate = cand := by
  obtain ⟨leg, mem, rfl⟩ := List.mem_map.mp (List.mem_of_mem_take picked)
  obtain ⟨inLegs, stuck⟩ := List.mem_filter.mp mem
  exact ⟨leg, inLegs, stuck, rfl⟩

theorem isWeak_linked (weak : s.isWeak e legs leg = true) : leg.linked = true := by
  simp only [isWeak, Observed.rated, Bool.and_eq_true] at weak
  exact weak.1.1.1

theorem isStuck_unlinked (stuck : s.isStuck e leg = true) : leg.linked = false := by
  simp only [isStuck, Bool.and_eq_true, Bool.not_eq_true'] at stuck
  exact stuck.1.1.1

theorem linked_mem_commands (query : e.query = some legs) (nodup : (legs.map (·.circ)).Nodup) (mem : leg ∈ legs)
    (linked : leg.linked = true) (chooses : s.chooses e = true) :
    leg.circ ∈ s.commands e ↔ leg.weakCandidate ∈ s.weakPicks e legs := by
  rw [commands_eq query nodup chooses]
  constructor
  · intro picked
    obtain ⟨cand, here, same⟩ := List.mem_map.mp picked
    rcases List.mem_append.mp here with weak | stuck
    · obtain ⟨other, inLegs, -, rfl⟩ := mem_weakPicks weak
      obtain rfl := List.inj_on_of_nodup_map nodup inLegs mem same
      exact weak
    · obtain ⟨other, inLegs, isStuck, rfl⟩ := mem_stuckPicks stuck
      obtain rfl := List.inj_on_of_nodup_map nodup inLegs mem same
      rw [isStuck_unlinked isStuck] at linked
      cases linked
  · intro picked
    exact List.mem_map.mpr ⟨leg.weakCandidate, List.mem_append_left _ picked, rfl⟩

theorem unlinked_mem_commands (query : e.query = some legs) (nodup : (legs.map (·.circ)).Nodup) (mem : leg ∈ legs)
    (unlinked : leg.linked = false) (picked : leg.circ ∈ s.commands e) : s.isStuck e leg = true := by
  cases chooses : s.chooses e with
  | false =>
      rw [commands_idle chooses] at picked
      cases picked
  | true =>
      rw [commands_eq query nodup chooses] at picked
      obtain ⟨cand, here, same⟩ := List.mem_map.mp picked
      rcases List.mem_append.mp here with weak | stuck
      · obtain ⟨other, inLegs, isWeak, rfl⟩ := mem_weakPicks weak
        obtain rfl := List.inj_on_of_nodup_map nodup inLegs mem same
        rw [isWeak_linked isWeak] at unlinked
        cases unlinked
      · obtain ⟨other, inLegs, isStuck, rfl⟩ := mem_stuckPicks stuck
        obtain rfl := List.inj_on_of_nodup_map nodup inLegs mem same
        exact isStuck

theorem linked_isWeak (query : e.query = some legs) (nodup : (legs.map (·.circ)).Nodup) (mem : leg ∈ legs)
    (linked : leg.linked = true) (picked : leg.circ ∈ s.commands e) : s.isWeak e legs leg = true := by
  cases chooses : s.chooses e with
  | false =>
      rw [commands_idle chooses] at picked
      cases picked
  | true =>
      obtain ⟨other, inLegs, weak, same⟩ := mem_weakPicks ((linked_mem_commands query nodup mem linked chooses).mp picked)
      have circ : other.circ = leg.circ := congrArg Candidate.circ same
      obtain rfl := List.inj_on_of_nodup_map nodup inLegs mem circ
      exact weak

theorem linked_marked (query : e.query = some legs) (nodup : (legs.map (·.circ)).Nodup) (mem : leg ∈ legs)
    (linked : leg.linked = true) (picked : leg.circ ∈ s.commands e) : leg.circ ∈ pctWeak e legs := by
  have weak := linked_isWeak query nodup mem linked picked
  simp only [isWeak, Bool.and_eq_true, List.contains_iff_mem] at weak
  exact weak.1.2

theorem commands_length (query : e.query = some legs) (nodup : (legs.map (·.circ)).Nodup) :
    (s.commands e).length ≤ e.cfg.watchMaxPerPass.toNat := by
  cases chooses : s.chooses e with
  | false =>
      rw [commands_idle chooses]
      exact Nat.zero_le _
  | true =>
      have weak : (s.weakPicks e legs).length ≤ e.cfg.watchMaxPerPass.toNat := List.length_take_le _ _
      have stuck : (s.stuckPicks e legs).length ≤ (e.cfg.watchMaxPerPass - (s.weakPicks e legs).length).toNat :=
        List.length_take_le _ _
      rw [commands_eq query nodup chooses, List.length_map, List.length_append]
      omega

/-! ## The ranking -/

def slowCount (n : Nat) (pct : Int) : Nat := min ((n * pct.toNat + 99) / 100) (n - 1)

theorem bmod_le (x m : Nat) : (x : Int).bmod m ≤ x := by
  have rem : (x : Int) % m ≤ x := Int.ofNat_le.mpr (Nat.mod_le x m)
  rw [Int.bmod_def]
  split
  · exact rem
  · omega

theorem keepCount_le {n : Nat} {pct : Int} (several : 2 ≤ n) (on : 0 < pct) : keepCount n pct ≤ slowCount n pct := by
  obtain ⟨p, rfl⟩ : ∃ p : Nat, pct = p := ⟨pct.toNat, by omega⟩
  have wraps := bmod_le (n * p) (2 ^ 32)
  have product : 1 ≤ n * p := Nat.mul_pos (by omega) (by omega)
  rw [keepCount, slowCount, Int.toNat_natCast, ← Int.natCast_mul]
  generalize ((n * p : Nat) : Int).bmod (2 ^ 32) = wrapped at wraps ⊢
  omega

theorem allRtts_sublist (legs : List Observed) :
    ((allRtts legs).map (·.1)).Sublist (legs.map (·.circ)) := by
  induction legs with
  | nil => exact .slnil
  | cons leg legs ih =>
      unfold allRtts at *
      rw [List.filterMap_cons]
      split
      · exact ih.cons _
      · rename_i pair found
        have first : pair.1 = leg.circ := by
          split at found
          · obtain ⟨rtt, -, rfl⟩ := Option.map_eq_some_iff.mp found
            rfl
          · cases found
        rw [List.map_cons, List.map_cons, first]
        exact ih.cons_cons _

theorem mem_allRtts {legs : List Observed} {pair : String × Nat} :
    pair ∈ allRtts legs ↔ ∃ leg ∈ legs, leg.linked = true ∧ leg.circ = pair.1 ∧ leg.rttUs = some pair.2 := by
  unfold allRtts
  rw [List.mem_filterMap]
  refine exists_congr fun leg => and_congr_right fun _ => ?_
  cases leg.linked with
  | false => simp
  | true =>
      rw [if_pos rfl, Option.map_eq_some_iff]
      constructor
      · rintro ⟨rtt, found, rfl⟩
        exact ⟨rfl, rfl, found⟩
      · rintro ⟨-, circ, found⟩
        exact ⟨pair.2, found, by rw [circ]⟩

theorem pctWeak_spares (e : Pass) (nodup : ((allRtts legs).map (·.1)).Nodup) (some : allRtts legs ≠ []) :
    ∃ leg ∈ allRtts legs, leg.1 ∉ pctWeak e legs ∧ ∀ other ∈ allRtts legs, leg.2 ≤ other.2 := by
  have perm := e.byRtt.perm (allRtts legs)
  have sorted := e.byRtt.sorted (allRtts legs)
  have nonempty : e.byRtt.run (allRtts legs) ≠ [] := fun none => some (none ▸ perm).nil_eq.symm
  obtain ⟨init, last, split⟩ := List.eq_nil_or_concat _ |>.resolve_left nonempty
  rw [List.concat_eq_append] at split
  have length : (allRtts legs).length = init.length + 1 := by
    rw [← perm.length_eq, split, List.length_append, List.length_singleton]
  refine ⟨last, perm.subset (by rw [split]; simp), ?_, fun other mem => ?_⟩
  · unfold pctWeak
    dsimp only
    split
    · intro marked
      have keep : keepCount (allRtts legs).length e.cfg.watchRttPct ≤ init.length := by
        unfold keepCount
        omega
      rw [split, List.take_append_of_le_length keep] at marked
      have distinct := (perm.map (·.1)).nodup_iff.mpr nodup
      rw [split, List.map_append, List.map_singleton, List.nodup_append] at distinct
      obtain ⟨other, isOther, same⟩ := List.mem_map.mp marked
      exact distinct.2.2 _ (List.mem_map_of_mem (List.mem_of_mem_take isOther)) _
        (List.mem_singleton_self _) same
    · exact List.not_mem_nil
  · have isOther := perm.symm.subset mem
    rw [split] at isOther sorted
    rcases List.mem_append.mp isOther with earlier | isLast
    · exact (List.pairwise_append.mp sorted).2.2 other earlier last (List.mem_singleton_self _)
    · rw [List.mem_singleton.mp isLast]

theorem mem_pctWeak (on : 0 < e.cfg.watchRttPct) (marked : name ∈ pctWeak e legs) :
    ∃ pair ∈ (e.byRtt.run (allRtts legs)).take (slowCount (allRtts legs).length e.cfg.watchRttPct), pair.1 = name := by
  rw [pctWeak] at marked
  split at marked
  · rename_i several
    obtain ⟨pair, mem, same⟩ := List.mem_map.mp marked
    exact ⟨pair, List.take_subset_take_left _ (keepCount_le several on) mem, same⟩
  · cases marked

/-- What one pass picks: never more than its budget, linked legs from the slow end of the pool, slowest first and never
all of the fastest, and unlinked legs only when their time is up. -/
theorem pass_selection (s : Watch) {e : Pass} {legs : List Observed} (query : e.query = some legs)
    (nodup : (legs.map (·.circ)).Nodup) :
    (s.commands e).length ≤ e.cfg.watchMaxPerPass.toNat ∧
    (∃ slowest, First (fun a b => b.2 ≤ a.2) (slowCount (allRtts legs).length e.cfg.watchRttPct) slowest (allRtts legs) ∧
      ∀ leg ∈ legs, leg.linked = true → leg.circ ∈ s.commands e → (leg.circ, leg.rtt) ∈ slowest) ∧
    (allRtts legs ≠ [] → ∃ best ∈ allRtts legs, (∀ other ∈ allRtts legs, best.2 ≤ other.2) ∧ best.1 ∉ s.commands e) ∧
    (s.chooses e = true →
      First (fun a b => b.rtt ≤ a.rtt) e.cfg.watchMaxPerPass.toNat
        (legs.filter fun leg => leg.linked && (s.commands e).contains leg.circ) (legs.filter (s.isWeak e legs))) ∧
    ∀ leg ∈ legs, leg.linked = false → leg.circ ∈ s.commands e → e.warmup = false ∧ s.young e leg = false := by
  refine ⟨commands_length query nodup, ?_, ?_, ?_, ?_⟩
  · refine ⟨_, First.take (e.byRtt.perm _) (e.byRtt.sorted _), ?_⟩
    intro leg mem linked picked
    have on : 0 < e.cfg.watchRttPct := by
      cases chooses : s.chooses e with
      | false =>
          rw [commands_idle chooses] at picked
          cases picked
      | true =>
          rw [Watch.chooses, Bool.and_eq_true, decide_eq_true_eq] at chooses
          exact chooses.2
    obtain ⟨⟨circ, rtt⟩, inTake, rfl⟩ := mem_pctWeak on (linked_marked query nodup mem linked picked)
    obtain ⟨other, inLegs, -, same, measured⟩ := mem_allRtts.mp ((e.byRtt.perm _).subset (List.mem_of_mem_take inTake))
    obtain rfl := List.inj_on_of_nodup_map nodup inLegs mem same
    rw [Observed.rtt, measured]
    exact inTake
  · intro some
    obtain ⟨best, mem, unmarked, least⟩ := pctWeak_spares e (nodup.sublist (allRtts_sublist legs)) some
    refine ⟨best, mem, least, ?_⟩
    intro picked
    obtain ⟨leg, inLegs, linked, same, -⟩ := mem_allRtts.mp mem
    rw [← same] at picked unmarked
    exact unmarked (linked_marked query nodup inLegs linked picked)
  · intro chooses
    have distinct : ((legs.filter (s.isWeak e legs)).map Observed.weakCandidate).Nodup := by
      apply List.Nodup.of_map Candidate.circ
      rw [List.map_map]
      exact nodup.sublist (List.filter_sublist.map _)
    have first := (First.take (e.byWeakness.perm _) (e.byWeakness.sorted _)).comap (n := e.cfg.watchMaxPerPass.toNat) distinct
    have same : (legs.filter (s.isWeak e legs)).filter (fun leg => leg.weakCandidate ∈ s.weakPicks e legs) =
        legs.filter fun leg => leg.linked && (s.commands e).contains leg.circ := by
      rw [List.filter_filter]
      apply List.filter_congr
      intro leg mem
      rw [Bool.eq_iff_iff, Bool.and_eq_true, Bool.and_eq_true, decide_eq_true_eq, List.contains_iff_mem]
      constructor
      · rintro ⟨picked, weak⟩
        have linked := isWeak_linked weak
        exact ⟨linked, (linked_mem_commands query nodup mem linked chooses).mpr picked⟩
      · rintro ⟨linked, picked⟩
        exact ⟨(linked_mem_commands query nodup mem linked chooses).mp picked,
          linked_isWeak query nodup mem linked picked⟩
    rw [← same]
    exact first
  · intro leg mem unlinked picked
    have stuck := unlinked_mem_commands query nodup mem unlinked picked
    simp only [isStuck, Bool.and_eq_true, Bool.not_eq_true'] at stuck
    exact ⟨stuck.1.1.2, stuck.1.2⟩

/-- Of two legs that are as slow the budget leaves one. -/
theorem one_of_two_picked :
    let legs := [linkedLeg "7" 900, linkedLeg "8" 100, linkedLeg "9" 900]
    let once := initial.pass (passAt 10 legs)
    let e : Pass := { passAt 20 legs with cfg := { (passAt 20 legs).cfg with watchMaxPerPass := 1 } }
    (once.isWeak e legs (linkedLeg "7" 900) && once.isWeak e legs (linkedLeg "9" 900)) = true ∧
      (once.commands e).length ≤ 1 := by
  refine ⟨by decide +kernel, (pass_selection _ rfl (by decide)).1⟩

end Watch
end TorJet.Launcher
