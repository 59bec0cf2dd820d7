import Mathlib.Algebra.BigOperators.Group.List.Basic
import Mathlib.Algebra.Order.Ring.Nat
import Mathlib.Data.List.Infix

/-!
# Leaky buckets

A level that is raised up to a burst and lowered by what is spent. Where one token is taken at each visit, the bucket
runs low exactly when some stretch of the visits is too dense.
-/

namespace TorJet.Base.Bucket

/-! ## What a bucket holds -/

/-- Tokens are added and taken: what is taken beyond the limit is not accounted for. -/
theorem held_step (burst : Int) {level limit added : Int} {taken : Nat} (more : 0 ≤ added)
    (below : taken ≠ 0 → limit ≤ max level 0) :
    max (min burst (level + added) - taken) 0 + taken ≤ max level 0 + added + (taken - limit).toNat := by
  by_cases none : taken = 0
  · subst none
    omega
  · have limited := below none
    omega

/-! ## One token for each visit -/

section Visits
variable {burst rate m gap : Nat} {visits stretch : List Nat}

/-- What is left after visits, the latest first: each is so long after the one before it. -/
def left (burst rate : Nat) : List Nat → Nat
  | [] => burst
  | gap :: before => min burst (left burst rate before + rate * gap) - 1

/-- What the latest of the visits finds -/
def offered (burst rate : Nat) : List Nat → Nat
  | [] => burst
  | gap :: before => min burst (left burst rate before + rate * gap)

/-- The time between the first and the last of a stretch of visits -/
def span (stretch : List Nat) : Nat := stretch.dropLast.sum

/-- More visits than the burst and the rate give in their time, up to `m`. -/
def Dense (burst rate m : Nat) (stretch : List Nat) : Prop :=
  stretch ≠ [] ∧ burst + rate * span stretch < stretch.length + m

theorem span_cons (gap : Nat) (some_ : stretch ≠ []) : span (gap :: stretch) = gap + span stretch := by
  rw [span, List.dropLast_cons_of_ne_nil some_, List.sum_cons, span]

theorem left_le (burst rate : Nat) (visits : List Nat) : left burst rate visits ≤ burst := by
  cases visits with
  | nil => exact Nat.le_refl _
  | cons gap before => exact Nat.le_trans (Nat.sub_le _ _) (Nat.min_le_left _ _)

/-- Some stretch up to the latest visit accounts for what it finds. -/
theorem exists_stretch (burst rate gap : Nat) (before : List Nat) : ∃ stretch, stretch ≠ [] ∧ stretch <+: gap :: before ∧
    burst + rate * span stretch < offered burst rate (gap :: before) + stretch.length := by
  have alone : burst ≤ left burst rate before + rate * gap → ∃ stretch, stretch ≠ [] ∧ stretch <+: gap :: before ∧
      burst + rate * span stretch < offered burst rate (gap :: before) + stretch.length := by
    intro full
    refine ⟨[gap], List.cons_ne_nil _ _, ⟨before, rfl⟩, ?_⟩
    rw [offered, Nat.min_eq_left full]
    exact Nat.lt_succ_self _
  induction before generalizing gap with
  | nil => exact alone (Nat.le_add_right _ _)
  | cons last before ih =>
      rcases Nat.le_total burst (left burst rate (last :: before) + rate * gap) with full | low
      · exact alone full
      · have earlier : ∃ stretch, stretch ≠ [] ∧ stretch <+: last :: before ∧
            burst + rate * span stretch < offered burst rate (last :: before) + stretch.length := by
          apply ih
          intro full
          refine ⟨[last], List.cons_ne_nil _ _, ⟨before, rfl⟩, ?_⟩
          rw [offered, Nat.min_eq_left full]
          exact Nat.lt_succ_self _
        obtain ⟨stretch, some_, latest, bound⟩ := earlier
        refine ⟨gap :: stretch, List.cons_ne_nil _ _, List.cons_prefix_cons.mpr ⟨rfl, latest⟩, ?_⟩
        have taken : left burst rate (last :: before) = offered burst rate (last :: before) - 1 := rfl
        rw [span_cons gap some_, Nat.mul_add, offered, Nat.min_eq_right low, taken, List.length_cons]
        omega

/-- Where no visit found few tokens, what the latest one finds is bounded by any stretch up to it. -/
theorem offered_add_length_le (some_ : stretch ≠ []) (rest : List Nat)
    (many : ∀ early ≠ [], early <:+ stretch ++ rest → 0 < offered burst rate early) :
    offered burst rate (stretch ++ rest) + stretch.length ≤ burst + rate * span stretch + 1 := by
  induction stretch with
  | nil => exact absurd rfl some_
  | cons gap stretch ih =>
      cases stretch with
      | nil =>
          have le : offered burst rate ([gap] ++ rest) ≤ burst := Nat.min_le_left _ _
          exact Nat.add_le_add_right (Nat.le_trans le (Nat.le_add_right _ _)) 1
      | cons last before =>
          have earlier := ih (List.cons_ne_nil _ _) fun early some_ suffix =>
            many early some_ (suffix.trans (List.suffix_cons _ _))
          have found := many (last :: before ++ rest) (List.cons_ne_nil _ _) (List.suffix_cons gap _)
          have le : offered burst rate (gap :: last :: before ++ rest) ≤
              offered burst rate (last :: before ++ rest) - 1 + rate * gap := Nat.min_le_right _ _
          rw [span_cons gap (List.cons_ne_nil _ _), Nat.mul_add, List.length_cons]
          omega

/-- A visit finds at most `m` tokens exactly when some stretch of the visits is too dense. -/
theorem exists_offered_le_iff : (∃ early ≠ [], early <:+ visits ∧ offered burst rate early ≤ m) ↔
    ∃ stretch, stretch <:+: visits ∧ Dense burst rate m stretch := by
  constructor
  · rintro ⟨early, some_, ends, few⟩
    cases early with
    | nil => exact absurd rfl some_
    | cons gap before =>
        obtain ⟨stretch, some_, latest, bound⟩ := exists_stretch burst rate gap before
        exact ⟨stretch, latest.isInfix.trans ends.isInfix, some_, by omega⟩
  · rintro ⟨stretch, ⟨later, rest, eq⟩, some_, dense⟩
    by_contra none
    have many : ∀ early ≠ [], early <:+ stretch ++ rest → m < offered burst rate early := by
      intro early some_ ends
      apply Nat.lt_of_not_le
      intro few
      apply none
      refine ⟨early, some_, ends.trans ?_, few⟩
      exact ⟨later, by rw [← List.append_assoc, eq]⟩
    have now := many (stretch ++ rest) (List.append_ne_nil_of_left_ne_nil some_ _) (List.suffix_refl _)
    have bound : offered burst rate (stretch ++ rest) + stretch.length ≤ burst + rate * span stretch + 1 :=
      offered_add_length_le some_ rest fun early some_ ends => Nat.zero_lt_of_lt (many early some_ ends)
    omega

theorem exists_early_cons {P : List Nat → Prop} {before : List Nat} :
    (∃ early ≠ [], early <:+ gap :: before ∧ P early) ↔ P (gap :: before) ∨ ∃ early ≠ [], early <:+ before ∧ P early := by
  constructor
  · rintro ⟨early, some_, ends, holds⟩
    rcases List.suffix_cons_iff.mp ends with rfl | ends
    · exact .inl holds
    · exact .inr ⟨early, some_, ends, holds⟩
  · rintro (holds | ⟨early, some_, ends, holds⟩)
    · exact ⟨_, List.cons_ne_nil _ _, List.suffix_refl _, holds⟩
    · exact ⟨early, some_, ends.trans (List.suffix_cons _ _), holds⟩

/-! ## Answers -/

/-- Each visit is let through where it finds more than `m` tokens. -/
def answers (burst rate m : Nat) : List Nat → List Bool
  | [] => []
  | gap :: before => decide (m < offered burst rate (gap :: before)) :: answers burst rate m before

theorem false_mem_answers_iff :
    false ∈ answers burst rate m visits ↔ ∃ stretch, stretch <:+: visits ∧ Dense burst rate m stretch := by
  rw [← exists_offered_le_iff]
  induction visits with
  | nil =>
      constructor
      · intro mem
        exact absurd mem List.not_mem_nil
      · rintro ⟨early, some_, ends, -⟩
        exact absurd (List.suffix_nil.mp ends) some_
  | cons gap before ih => rw [answers, List.mem_cons, exists_early_cons, ih, eq_comm, decide_eq_false_iff_not, Nat.not_lt]

/-- What the latest visits were let through, from what was left before them -/
theorem left_add_count (burst rate m : Nat) (visits : List Nat) (k : Nat) :
    left burst rate visits + ((answers burst rate m visits).take k).count true ≤
      left burst rate (visits.drop k) + rate * (visits.take k).sum := by
  induction visits generalizing k with
  | nil => simp [answers]
  | cons gap before ih =>
      cases k with
      | zero => simp
      | succ k =>
          have rest := ih k
          have le : offered burst rate (gap :: before) ≤ left burst rate before + rate * gap := Nat.min_le_right _ _
          have taken : left burst rate (gap :: before) = offered burst rate (gap :: before) - 1 := rfl
          rw [answers, List.take_succ_cons, List.take_succ_cons, List.drop_succ_cons, List.sum_cons, Nat.mul_add,
            List.count_cons]
          split
          · rename_i through
            have through : m < offered burst rate (gap :: before) := by simpa using through
            omega
          · omega

theorem count_answers_le (visits : List Nat) (k : Nat) :
    ((answers burst rate m visits).take k).count true ≤ burst + rate * (visits.take k).sum := by
  have counted := left_add_count burst rate m visits k
  have held := left_le burst rate (visits.drop k)
  omega

end Visits

end TorJet.Base.Bucket
