import Mathlib.Algebra.Order.Group.Unbundled.Int
import Mathlib.Data.List.Count
import Mathlib.Data.List.Sort
import Mathlib.Tactic.ByContra
import TorJet.Smartlist.Pqueue

/-!
# `smartlist_bsearch_idx`

Bisection with a key that is compared with the members of a list, and with the assertions that the search makes.
-/

namespace TorJet.Smartlist.Search

inductive Fault
  | read
  | assertion
  deriving DecidableEq

section Source
variable {α κ : Type}

/-- `sl->list[i]` -/
def get (sl : List α) (i : Int) : Except Fault α :=
  if i < 0 then .error .read
  else
    match sl[i.toNat]? with
    | some member => .ok member
    | none => .error .read

def torAssert (condition : Bool) : Except Fault Unit := if condition then .ok () else .error .assertion

variable (sl : List α) (key : κ) (compare : κ → α → Int)

/-- What is behind the loop of `smartlist_bsearch_idx`. -/
def insertAt (lo hi : Int) : Except Fault (Int × Bool) := do
  let len : Int := sl.length
  torAssert (lo = hi + 1)
  torAssert (0 ≤ lo)
  torAssert (lo ≤ len)
  torAssert (0 ≤ hi)
  torAssert (hi ≤ len)
  if lo < len then
    let member ← get sl lo
    torAssert (compare key member < 0)
  else
    let member ← get sl (len - 1)
    torAssert (0 < compare key member)
  return (lo, false)

/-- The loop of `smartlist_bsearch_idx`. -/
def search (lo hi : Int) : Except Fault (Int × Bool) :=
  if more : lo ≤ hi then do
    let mid := lo + (hi - lo) / 2
    let member ← get sl mid
    let cmp := compare key member
    if cmp = 0 then return (mid, true)
    else if 0 < cmp then
      torAssert (mid < sl.length)
      search (mid + 1) hi
    else
      torAssert (cmp < 0)
      if 0 < mid then search lo (mid - 1)
      else
        torAssert (mid = lo)
        torAssert (mid = 0)
        return (0, false)
  else insertAt sl key compare lo hi
termination_by (hi + 1 - lo).toNat
decreasing_by all_goals omega

/-- `smartlist_bsearch_idx`: the index, and whether a member was found there. -/
def smartlistBsearchIdx : Except Fault (Int × Bool) :=
  if sl.length = 0 then .ok (0, false) else search sl key compare 0 (sl.length - 1)

def smartlistBsearch : Option α :=
  match smartlistBsearchIdx sl key compare with
  | .ok (idx, true) => sl[idx.toNat]?
  | _ => none

end Source

/-! ## What is found -/

section Found
variable {α κ : Type} {sl : List α} {key : κ} {compare : κ → α → Int} {lo hi : Int} {x : α}

def SortedFor (compare : κ → α → Int) (key : κ) (sl : List α) : Prop :=
  sl.Pairwise fun x y => (0 < compare key y → 0 < compare key x) ∧ (compare key x < 0 → compare key y < 0)

instance (compare : κ → α → Int) (key : κ) (sl : List α) : Decidable (SortedFor compare key sl) :=
  inferInstanceAs (Decidable (sl.Pairwise _))

structure Finds (compare : κ → α → Int) (key : κ) (sl : List α) (r : Int × Bool) : Prop where
  found_iff : r.2 = true ↔ ∃ x ∈ sl, compare key x = 0
  found : r.2 = true → 0 ≤ r.1 ∧ ∃ x, sl[r.1.toNat]? = some x ∧ compare key x = 0
  missing : r.2 = false → r.1 = sl.countP fun x => 0 < compare key x

theorem get_ok (sl : List α) (lo : Int) (low : 0 ≤ lo) (high : lo < sl.length) :
    ∃ x, sl[lo.toNat]? = some x ∧ get sl lo = .ok x := by
  have inside : lo.toNat < sl.length := by omega
  refine ⟨sl[lo.toNat], List.getElem?_eq_getElem inside, ?_⟩
  rw [get, if_neg (by omega), List.getElem?_eq_getElem inside]

theorem torAssert_ok {condition : Bool} (holds : condition = true) : torAssert condition = .ok () := if_pos holds

theorem sorted_before (sorted : SortedFor compare key sl) {i j : Nat} {x y : α} (le : i ≤ j) (first : sl[i]? = some x)
    (second : sl[j]? = some y) : (0 < compare key y → 0 < compare key x) ∧ (compare key x < 0 → compare key y < 0) := by
  obtain ⟨rangeI, rfl⟩ := List.getElem?_eq_some_iff.mp first
  obtain ⟨rangeJ, rfl⟩ := List.getElem?_eq_some_iff.mp second
  obtain less | rfl := Nat.lt_or_eq_of_le le
  · exact List.pairwise_iff_getElem.mp sorted i j rangeI rangeJ less
  · exact ⟨id, id⟩

/-- The members before `lo` are less than the key, and those after `hi` are greater. -/
structure Between (compare : κ → α → Int) (key : κ) (sl : List α) (lo hi : Int) : Prop where
  low : 0 ≤ lo
  high : 0 ≤ hi
  inside : hi < sl.length
  ends : lo ≤ hi + 1
  before : ∀ (i : Nat) x, sl[i]? = some x → (i : Int) < lo → 0 < compare key x
  after : ∀ (i : Nat) x, sl[i]? = some x → hi < (i : Int) → compare key x < 0

theorem finds_of_split {n : Nat} (range : n ≤ sl.length)
    (before : ∀ (i : Nat) x, sl[i]? = some x → i < n → 0 < compare key x)
    (after : ∀ (i : Nat) x, sl[i]? = some x → n ≤ i → compare key x < 0) : Finds compare key sl (n, false) := by
  have less : (sl.take n).countP (fun x => 0 < compare key x) = n := by
    rw [List.countP_eq_length.mpr, List.length_take, Nat.min_eq_left range]
    intro x mem
    obtain ⟨i, bound, rfl⟩ := List.mem_take_iff_getElem.mp mem
    exact decide_eq_true (before i _ (List.getElem?_eq_getElem (by omega)) (by omega))
  have greater : (sl.drop n).countP (fun x => 0 < compare key x) = 0 := by
    rw [List.countP_eq_zero]
    intro x mem
    obtain ⟨i, bound, rfl⟩ := List.mem_drop_iff_getElem.mp mem
    have negative := after (n + i) _ (List.getElem?_eq_getElem (by omega)) (by omega)
    rw [decide_eq_true_eq]
    omega
  constructor
  · refine iff_of_false Bool.false_ne_true ?_
    rintro ⟨x, mem, equal⟩
    obtain ⟨i, here⟩ := List.mem_iff_getElem?.mp mem
    obtain less | ge := Nat.lt_or_ge i n
    · have positive := before i x here less
      omega
    · have negative := after i x here ge
      omega
  · exact fun absurd => by cases absurd
  · intro _
    conv_rhs => rw [← List.take_append_drop n sl, List.countP_append, less, greater]
    rfl

theorem insertAt_spec (between : Between compare key sl lo hi) (past : ¬ lo ≤ hi) :
    ∃ r, insertAt sl key compare lo hi = .ok r ∧ Finds compare key sl r := by
  obtain ⟨low, high, inside, ends, before, after⟩ := between
  have meet : lo = hi + 1 := by omega
  have finds : Finds compare key sl (lo, false) := by
    have shape := @finds_of_split _ _ sl key compare lo.toNat (by omega) (fun i x here less => before i x here (by omega))
      (fun i x here ge => after i x here (by omega))
    rwa [Int.toNat_of_nonneg low] at shape
  refine ⟨(lo, false), ?_, finds⟩
  rw [insertAt, torAssert_ok (decide_eq_true meet), torAssert_ok (decide_eq_true low),
    torAssert_ok (decide_eq_true (by omega)), torAssert_ok (decide_eq_true high),
      torAssert_ok (decide_eq_true (by omega))]
  by_cases more : lo < sl.length
  · obtain ⟨x, here, eq⟩ := get_ok _ _ low more
    have negative := after lo.toNat x here (by omega)
    simp only [more, if_true, eq, bind, Except.bind, torAssert_ok (decide_eq_true negative)]
    rfl
  · obtain ⟨x, here, eq⟩ := get_ok sl (sl.length - 1) (by omega) (by omega)
    have positive := before _ x here (by omega)
    simp only [more, if_false, eq, bind, Except.bind, torAssert_ok (decide_eq_true positive)]
    rfl

theorem Between.right (between : Between compare key sl lo hi) (sorted : SortedFor compare key sl) {mid : Int}
    (from_ : lo ≤ mid) (upTo : mid ≤ hi) (here : sl[mid.toNat]? = some x) (greater : 0 < compare key x) :
    Between compare key sl (mid + 1) hi := by
  obtain ⟨low, high, inside, ends, before, after⟩ := between
  refine ⟨by omega, high, inside, by omega, fun i y found less => ?_, after⟩
  exact (sorted_before sorted (by omega) found here).1 greater

theorem Between.left (between : Between compare key sl lo hi) (sorted : SortedFor compare key sl) {mid : Int}
    (from_ : lo ≤ mid) (upTo : mid ≤ hi) (positive : 0 < mid) (here : sl[mid.toNat]? = some x) (less :
      compare key x < 0) :
    Between compare key sl lo (mid - 1) := by
  obtain ⟨low, high, inside, ends, before, after⟩ := between
  refine ⟨low, by omega, by omega, by omega, before, fun i y found past => ?_⟩
  exact (sorted_before sorted (by omega) here found).2 less

theorem search_spec (sorted : SortedFor compare key sl) (n : Nat) (lo hi : Int) (size : (hi + 1 - lo).toNat ≤ n)
    (between : Between compare key sl lo hi) : ∃ r, search sl key compare lo hi = .ok r ∧ Finds compare key sl r := by
  induction n generalizing lo hi with
  | zero =>
      have past : ¬ lo ≤ hi := by omega
      rw [search, dif_neg past]
      exact insertAt_spec between past
  | succ n ih =>
      rw [search]
      split
      · rename_i more
        have from_ : lo ≤ lo + (hi - lo) / 2 := by omega
        have upTo : lo + (hi - lo) / 2 ≤ hi := by omega
        generalize lo + (hi - lo) / 2 = mid at from_ upTo
        have inside := between.inside
        have low := between.low
        obtain ⟨x, here, eq⟩ := get_ok sl mid (by omega) (by omega)
        simp only [eq, bind, Except.bind]
        split
        · rename_i equal
          refine ⟨(mid, true), rfl, iff_of_true rfl ⟨x, List.mem_of_getElem? here, equal⟩, fun _ => ?_, fun absurd => ?_⟩
          · exact ⟨by omega, x, here, equal⟩
          · cases absurd
        split
        · rename_i greater
          rw [torAssert_ok (decide_eq_true (by omega))]
          exact ih (mid + 1) hi (by omega) (between.right sorted from_ upTo here greater)
        · rename_i notEqual notGreater
          have less : compare key x < 0 := by omega
          rw [torAssert_ok (decide_eq_true less)]
          dsimp only
          split
          · rename_i positive
            exact ih lo (mid - 1) (by omega) (between.left sorted from_ upTo positive here less)
          · rename_i notPositive
            rw [torAssert_ok (decide_eq_true (by omega)), torAssert_ok (decide_eq_true (by omega))]
            refine ⟨(0, false), rfl, finds_of_split (n :=
              0) (Nat.zero_le _) (fun i y _ lt => absurd lt (Nat.not_lt_zero i))
              fun i y found _ => ?_⟩
            exact (sorted_before sorted (by omega) here found).2 less
      · rename_i past
        exact insertAt_spec between past

/-- The search ends without a failing assertion, and finds what is there or where it would be. -/
theorem smartlistBsearchIdx_finds (sorted : SortedFor compare key sl) :
    ∃ r, smartlistBsearchIdx sl key compare = .ok r ∧ Finds compare key sl r := by
  rw [smartlistBsearchIdx]
  split
  · rename_i empty
    obtain rfl := List.length_eq_zero_iff.mp empty
    exact ⟨(0, false), rfl, finds_of_split (n := 0) (Nat.zero_le _) (fun i y found => by cases found)
      fun i y found => by cases found⟩
  · refine search_spec sorted _ 0 (sl.length - 1) (Nat.le_refl _) ⟨by omega, by omega, by omega, by omega, ?_, ?_⟩
    · exact fun i y _ less => by omega
    · intro i y found past
      have range := (List.getElem?_eq_some_iff.mp found).1
      omega

theorem smartlistBsearchIdx_runs : ∃ r, smartlistBsearchIdx [1, 3, 3, 7] 3
    (fun key member : Int => key - member) = .ok r ∧
    Finds (fun key member : Int => key - member) 3 [1, 3, 3, 7] r :=
  smartlistBsearchIdx_finds (by decide)

end Found
end TorJet.Smartlist.Search

/-! ## Bisection in an ordered smartlist -/

namespace TorJet.Smartlist
variable {α : Type*} [LinearOrder α]

variable {sl : List α} {key : α}

end TorJet.Smartlist
