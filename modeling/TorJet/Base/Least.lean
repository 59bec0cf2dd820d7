import Mathlib.Algebra.BigOperators.Group.Finset.Basic
import Mathlib.Algebra.Order.BigOperators.Group.Finset
import Mathlib.Data.List.Basic
import Mathlib.Data.List.Nodup
import Mathlib.Data.List.Perm.Basic
import Mathlib.Order.BoundedOrder.Basic
import Mathlib.Order.Lattice

/-!
# The first elements of a list

Some elements of a list such that none of the others comes before one of them: what a sorted arrangement of
the list starts with.
-/

namespace TorJet.Base
variable {α β : Type*}

/-- As many as `n` elements, or all of them, that come before the others. -/
structure First (r : α → α → Prop) (n : Nat) (chosen all : List α) : Prop where
  length : chosen.length = min n all.length
  rest : ∃ dropped, all.Perm (chosen ++ dropped) ∧ ∀ c ∈ chosen, ∀ d ∈ dropped, r c d

namespace First
variable {r : α → α → Prop} {n : Nat} {chosen all items : List α}

theorem take (perm : items.Perm all) (sorted : items.Pairwise r) : First r n (items.take n) all where
  length := by rw [List.length_take, perm.length_eq]
  rest := by
    refine ⟨items.drop n, ?_, ?_⟩
    · rw [List.take_append_drop]
      exact perm.symm
    · intro c inTake d inDrop
      rw [← List.take_append_drop n items] at sorted
      exact (List.pairwise_append.mp sorted).2.2 c inTake d inDrop

theorem subset (first : First r n chosen all) : chosen ⊆ all := by
  obtain ⟨dropped, perm, -⟩ := first.rest
  intro c mem
  exact perm.symm.subset (List.mem_append_left _ mem)

theorem dominates (first : First r n chosen all) {c d : α} (isChosen : c ∈ chosen) (mem : d ∈ all) (left : d ∉ chosen) :
    r c d := by
  obtain ⟨dropped, perm, before⟩ := first.rest
  rcases List.mem_append.mp (perm.subset mem) with here | there
  · exact absurd here left
  · exact before c isChosen d there

theorem comap [DecidableEq α] {f : β → α} {l : List β} (first : First r n chosen (l.map f)) (nodup : (l.map f).Nodup) :
    First (fun a b => r (f a) (f b)) n (l.filter fun a => f a ∈ chosen) l where
  length := by
    have chosenNodup : chosen.Nodup := by
      obtain ⟨dropped, perm, -⟩ := first.rest
      exact (List.nodup_append.mp (perm.nodup_iff.mp nodup)).1
    have filtered : ((l.filter fun a => f a ∈ chosen).map f).Nodup := nodup.sublist (List.filter_sublist.map f)
    have same : ((l.filter fun a => f a ∈ chosen).map f).Perm chosen := by
      rw [List.perm_ext_iff_of_nodup filtered chosenNodup]
      intro c
      constructor
      · intro mem
        obtain ⟨a, inFilter, rfl⟩ := List.mem_map.mp mem
        exact of_decide_eq_true (List.mem_filter.mp inFilter).2
      · intro mem
        obtain ⟨a, inList, rfl⟩ := List.mem_map.mp (first.subset mem)
        exact List.mem_map_of_mem (List.mem_filter.mpr ⟨inList, decide_eq_true mem⟩)
    have length := same.length_eq
    rwa [List.length_map, first.length, List.length_map] at length
  rest := by
    refine ⟨l.filter fun a => !decide (f a ∈ chosen), (List.filter_append_perm _ l).symm, ?_⟩
    intro c isChosen d isDropped
    have left := (List.mem_filter.mp isDropped).2
    rw [Bool.not_eq_true', decide_eq_false_iff_not] at left
    exact first.dominates (of_decide_eq_true (List.mem_filter.mp isChosen).2)
      (List.mem_map_of_mem (List.mem_filter.mp isDropped).1) left

end First
end TorJet.Base

/-!
## A running minimum

The scan of a list that remembers where the least key so far was, with a bound that no key exceeds to start from.
-/

namespace TorJet.Base
variable {α β : Type*} [LinearOrder β]

def leastFrom (key : α → β) : β → Nat → Nat → List α → Nat
  | _, picked, _, [] => picked
  | least, picked, i, c :: rest =>
      if key c < least then leastFrom key (key c) i (i + 1) rest else leastFrom key least picked (i + 1) rest

def leastIndex [OrderTop β] (key : α → β) (l : List α) : Nat := leastFrom key ⊤ 0 0 l

structure LeastAt (key : α → β) (l : List α) (i : Nat) (c : α) : Prop where
  here : l[i]? = some c
  least : ∀ d ∈ l, key c ≤ key d
  first : ∀ j d, l[j]? = some d → j < i → key c < key d

structure Scanned [OrderTop β] (key : α → β) (before : List α) (least : β) (picked : Nat) : Prop where
  le : ∀ d ∈ before, least ≤ key d
  first : ∀ j d, before[j]? = some d → j < picked → least < key d
  found : (∃ c, before[picked]? = some c ∧ key c = least) ∨ picked = 0 ∧ least = ⊤

section Scan
variable [OrderTop β] {key : α → β} {l before rest : List α} {least : β} {picked : Nat} {c d : α}

theorem Scanned.keep (scanned : Scanned key before least picked) (more : least ≤ key c) :
    Scanned key (before ++ [c]) least picked where
  le := by
    intro d mem
    rcases List.mem_append.mp mem with old | new
    · exact scanned.le d old
    · rwa [List.mem_singleton.mp new]
  first := by
    intro j d at_j lt
    rcases scanned.found with ⟨x, there, -⟩ | ⟨zero, -⟩
    · have inside := (List.getElem?_eq_some_iff.mp there).1
      rw [List.getElem?_append_left (by omega)] at at_j
      exact scanned.first j d at_j lt
    · omega
  found := by
    rcases scanned.found with ⟨x, there, same⟩ | zero
    · have inside := (List.getElem?_eq_some_iff.mp there).1
      exact .inl ⟨x, by rwa [List.getElem?_append_left inside], same⟩
    · exact .inr zero

theorem Scanned.take (scanned : Scanned key before least picked) (less : key c < least) :
    Scanned key (before ++ [c]) (key c) before.length where
  le := by
    intro d mem
    rcases List.mem_append.mp mem with old | new
    · exact less.le.trans (scanned.le d old)
    · rw [List.mem_singleton.mp new]
  first := by
    intro j d at_j lt
    rw [List.getElem?_append_left lt] at at_j
    exact less.trans_le (scanned.le d (List.mem_of_getElem? at_j))
  found := .inl ⟨c, by simp, rfl⟩

theorem leastFrom_scanned (scanned : Scanned key before least picked) (rest : List α) :
    ∃ least', Scanned key (before ++ rest) least' (leastFrom key least picked before.length rest) := by
  induction rest generalizing before least picked with
  | nil => exact ⟨least, by rwa [List.append_nil]⟩
  | cons c rest ih =>
      rw [leastFrom]
      have split : before ++ c :: rest = (before ++ [c]) ++ rest := by simp
      have length : before.length + 1 = (before ++ [c]).length := by simp
      rw [split, length]
      split
      · rename_i less
        exact ih (scanned.take less)
      · rename_i more
        exact ih (scanned.keep (not_lt.mp more))

theorem leastIndex_spec (key : α → β) (some : l ≠ []) : ∃ c, LeastAt key l (leastIndex key l) c := by
  have start : Scanned key ([] : List α) ⊤ 0 := by
    refine ⟨fun d mem => ?_, fun j d at_j lt => ?_, .inr ⟨rfl, rfl⟩⟩
    · cases mem
    · cases at_j
  obtain ⟨least, scanned⟩ := leastFrom_scanned start l
  rw [List.nil_append] at scanned
  change Scanned key l least (leastIndex key l) at scanned
  rcases scanned.found with ⟨c, here, rfl⟩ | ⟨zero, top⟩
  · exact ⟨c, here, scanned.le, scanned.first⟩
  · obtain ⟨c, rest, rfl⟩ := List.exists_cons_of_ne_nil some
    have le := scanned.le c List.mem_cons_self
    rw [top, top_le_iff] at le
    refine ⟨c, by rw [zero]; rfl, fun d mem => ?_, fun j d _ lt => by omega⟩
    have far := scanned.le d mem
    rwa [top, ← le] at far

end Scan
/-! ## The best of a list by a comparison -/

section Best
variable {better : α → α → Bool} {key : α → β} {l : List α} {b : α}

def keepBest (better : α → α → Bool) (best : Option α) (a : α) : Option α :=
  match best with
  | none => some a
  | some b => if better a b then some a else some b

def FirstLeast (key : α → β) (l : List α) (b : α) : Prop :=
  ∃ before after, l = before ++ b :: after ∧ (∀ c ∈ before, key b < key c) ∧ ∀ c ∈ after, key b ≤ key c

theorem FirstLeast.mem (least : FirstLeast key l b) : b ∈ l := by
  obtain ⟨before, after, rfl, -⟩ := least
  exact List.mem_append_right before List.mem_cons_self

theorem FirstLeast.le (least : FirstLeast key l b) : ∀ c ∈ l, key b ≤ key c := by
  obtain ⟨before, after, rfl, first, last⟩ := least
  intro c mem
  obtain early | here := List.mem_append.mp mem
  · exact (first c early).le
  obtain rfl | late := List.mem_cons.mp here
  · exact le_rfl
  · exact last c late

theorem FirstLeast.unique (least : FirstLeast key l a) (least' : FirstLeast key l b) : a = b := by
  obtain ⟨before, after, rfl, first, last⟩ := least
  obtain ⟨before', after', split, first', last'⟩ := least'
  obtain ⟨cs, more, rest⟩ | ⟨cs, more, rest⟩ := List.append_eq_append_iff.mp split
  · cases cs with
    | nil => exact (List.cons.inj rest).1
    | cons c cs =>
        obtain ⟨rfl, rfl⟩ := List.cons.inj rest
        have below := first' a (more ▸ List.mem_append_right before List.mem_cons_self)
        exact absurd below (not_lt.mpr (last b (List.mem_append_right cs List.mem_cons_self)))
  · cases cs with
    | nil => exact (List.cons.inj rest).1.symm
    | cons c cs =>
        obtain ⟨rfl, rfl⟩ := List.cons.inj rest
        have below := first b (more ▸ List.mem_append_right before' List.mem_cons_self)
        exact absurd below (not_lt.mpr (last' a (List.mem_append_right cs List.mem_cons_self)))

theorem foldl_keepBest_some (a : α) (l : List α) (spec : ∀ c ∈ a :: l, ∀ d ∈ a :: l, better c d = true ↔ key c < key d) :
    ∃ b, l.foldl (keepBest better) (some a) = some b ∧ FirstLeast key (a :: l) b := by
  induction l generalizing a with
  | nil => exact ⟨a, rfl, [], [], rfl, fun c mem => absurd mem List.not_mem_nil, fun c mem => absurd mem List.not_mem_nil⟩
  | cons c l ih =>
      have swap := spec c (List.mem_cons_of_mem a List.mem_cons_self) a List.mem_cons_self
      rw [List.foldl_cons, keepBest]
      split
      · next more =>
          have less := swap.mp more
          obtain ⟨b, found, least⟩ := ih c fun x memX y memY =>
            spec x (List.mem_cons_of_mem a memX) y (List.mem_cons_of_mem a memY)
          have le := least.le c List.mem_cons_self
          obtain ⟨before, after, split, first, last⟩ := least
          refine ⟨b, found, a :: before, after, by rw [split, List.cons_append], fun x mem => ?_, last⟩
          obtain rfl | mem := List.mem_cons.mp mem
          · exact le.trans_lt less
          · exact first x mem
      · next kept =>
          have more : key a ≤ key c := not_lt.mp fun less => kept (swap.mpr less)
          have skip {x : α} (mem : x ∈ a :: l) : x ∈ a :: c :: l := by
            obtain rfl | mem := List.mem_cons.mp mem
            · exact List.mem_cons_self
            · exact List.mem_cons_of_mem a (List.mem_cons_of_mem c mem)
          obtain ⟨b, found, least⟩ := ih a fun x memX y memY => spec x (skip memX) y (skip memY)
          refine ⟨b, found, ?_⟩
          obtain ⟨before, after, split, first, last⟩ := least
          cases before with
          | nil =>
              obtain ⟨rfl, rfl⟩ := List.cons.inj split
              refine ⟨[], c :: l, rfl, first, fun x mem => ?_⟩
              obtain rfl | mem := List.mem_cons.mp mem
              · exact more
              · exact last x mem
          | cons d before =>
              obtain ⟨rfl, rfl⟩ := List.cons.inj split
              refine ⟨a :: c :: before, after, rfl, fun x mem => ?_, last⟩
              have above := first a List.mem_cons_self
              obtain rfl | mem := List.mem_cons.mp mem
              · exact above
              obtain rfl | mem := List.mem_cons.mp mem
              · exact above.trans_le more
              · exact first x (List.mem_cons_of_mem a mem)

theorem foldl_keepBest (l : List α) (spec : ∀ c ∈ l, ∀ d ∈ l, better c d = true ↔ key c < key d) :
    (l = [] ∧ l.foldl (keepBest better) none = none) ∨
      ∃ b, l.foldl (keepBest better) none = some b ∧ FirstLeast key l b := by
  cases l with
  | nil => exact .inl ⟨rfl, rfl⟩
  | cons a l => exact .inr (foldl_keepBest_some a l spec)

end Best
end TorJet.Base

/-!
## Serving the least counter

A rotation in which every turn goes to the first of the least counters, and how long one has to wait for it.
-/

namespace TorJet.Base.Rotation
open Finset

variable {n : Nat} {t t' : Nat → Nat} {i j k p : Nat}

/-- `i` is served before `j`. -/
def Ahead (t : Nat → Nat) (i j : Nat) : Prop := t i < t j ∨ t i = t j ∧ i < j

/-- `i` is the first of the least of `n` counters. -/
structure Picks (n : Nat) (t : Nat → Nat) (i : Nat) : Prop where
  inside : i < n
  ahead : ∀ j < n, j ≠ i → Ahead t i j

/-- How many turns the counter `i` is served before the counter `j`. -/
def turns (t : Nat → Nat) (j i : Nat) : Nat := if i < j then t j + 1 - t i else t j - t i

/-- How many turns the others have before `j` has one. -/
def lag (n : Nat) (t : Nat → Nat) (j : Nat) : Nat := ∑ i ∈ range n, turns t j i

/-- A turn of `p`. -/
def Served (n : Nat) (t : Nat → Nat) (p : Nat) (t' : Nat → Nat) : Prop :=
  ∀ i < n, t' i = t i + if i = p then 1 else 0

/-- Turns of the first of the least counters up to the turn `most`. -/
structure Turns (n : Nat) (t : Nat → Nat → Nat) (p : Nat → Nat) (most : Nat) : Prop where
  picks : ∀ k < most, Picks n (t k) (p k)
  served : ∀ k < most, Served n (t k) (p k) (t (k + 1))

@[simp] theorem turns_self : turns t j j = 0 := by simp [turns]

theorem lag_of_other (inside : j < n) (picks : Picks n t p) (served : Served n t p t') (other : p ≠ j) :
    lag n t' j + 1 = lag n t j := by
  have same : t' j = t j := by rw [served j inside, if_neg (Ne.symm other), Nat.add_zero]
  have less : turns t' j p + 1 = turns t j p := by
    have ahead := picks.ahead j inside (Ne.symm other)
    rw [turns, turns, same, served p picks.inside, if_pos rfl]
    rcases ahead with below | ⟨equal, before⟩
    · split <;> omega
    · rw [if_pos before, if_pos before]
      omega
  have rest : ∑ i ∈ (range n).erase p, turns t' j i = ∑ i ∈ (range n).erase p, turns t j i := by
    apply sum_congr rfl
    intro i mem
    obtain ⟨ne, there⟩ := mem_erase.mp mem
    have here : t' i = t i := by rw [served i (mem_range.mp there), if_neg ne, Nat.add_zero]
    rw [turns, turns, same, here]
  have inRange := mem_range.mpr picks.inside
  rw [lag, lag, ← add_sum_erase _ _ inRange, ← add_sum_erase _ _ inRange, rest]
  omega

theorem lag_of_turn (picks : Picks n t j) (served : Served n t j t') : lag n t j = 0 ∧ lag n t' j ≤ n - 1 := by
  constructor
  · rw [lag, sum_eq_zero]
    intro i mem
    by_cases same : i = j
    · rw [same, turns_self]
    · have ahead := picks.ahead i (mem_range.mp mem) same
      rw [turns]
      rcases ahead with below | ⟨equal, before⟩
      · split <;> omega
      · rw [if_neg (by omega)]
        omega
  · have each : ∀ i ∈ range n, turns t' j i ≤ if i = j then 0 else 1 := by
      intro i mem
      by_cases same : i = j
      · rw [same, turns_self, if_pos rfl]
      · have ahead := picks.ahead i (mem_range.mp mem) same
        rw [if_neg same, turns, served j picks.inside, if_pos rfl, served i (mem_range.mp mem), if_neg same]
        rcases ahead with below | ⟨equal, before⟩
        · split <;> omega
        · rw [if_neg (by omega)]
          omega
    calc lag n t' j ≤ ∑ i ∈ range n, if i = j then 0 else 1 := sum_le_sum each
      _ = ((range n).erase j).card := by
        rw [card_eq_sum_ones, ← add_sum_erase _ _ (mem_range.mpr picks.inside), if_pos rfl, Nat.zero_add]
        apply sum_congr rfl
        intro i mem
        rw [if_neg (ne_of_mem_erase mem)]
      _ = n - 1 := by rw [card_erase_of_mem (mem_range.mpr picks.inside), card_range]

section Runs
variable {t : Nat → Nat → Nat} {p : Nat → Nat} {most : Nat}

theorem Turns.turn_after_lag (turns : Turns n t p most) (inside : j < n) (k : Nat)
    (soon : k + lag n (t k) j < most) : p (k + lag n (t k) j) = j := by
  induction waits : lag n (t k) j generalizing k with
  | zero =>
      rw [waits] at soon
      by_contra other
      have nearer := lag_of_other inside (turns.picks k soon) (turns.served k soon) other
      omega
  | succ waits' ih =>
      have now : k < most := by omega
      by_cases mine : p k = j
      · have picks := turns.picks k now
        have served := turns.served k now
        rw [mine] at picks served
        have none := (lag_of_turn picks served).1
        omega
      · have nearer := lag_of_other inside (turns.picks k now) (turns.served k now) mine
        have next := ih (k + 1) (by omega) (by omega)
        rw [← next]
        congr 1
        omega

theorem Turns.no_turn_before (turns : Turns n t p most) (inside : j < n) {m : Nat} (before : m < lag n (t 0) j)
    (early : m < most) : p m ≠ j := by
  have left (m : Nat) (before : m < lag n (t 0) j) (early : m ≤ most) : lag n (t m) j + m = lag n (t 0) j := by
    induction m with
    | zero => rfl
    | succ m ih =>
        have here := ih (by omega) (by omega)
        have other : p m ≠ j := by
          intro mine
          have picks := turns.picks m early
          have served := turns.served m early
          rw [mine] at picks served
          have none := (lag_of_turn picks served).1
          omega
        have nearer := lag_of_other inside (turns.picks m early) (turns.served m early) other
        omega
  intro mine
  have picks := turns.picks m early
  have served := turns.served m early
  rw [mine] at picks served
  have none := (lag_of_turn picks served).1
  have here := left m before (by omega)
  omega

theorem Turns.lag_lt (turns : Turns n t p most) (inside : j < n) {bound : Nat} (enough : n ≤ bound)
    (start : lag n (t 0) j < bound) (k : Nat) (early : k ≤ most) : lag n (t k) j < bound := by
  induction k with
  | zero => exact start
  | succ k ih =>
      have here := ih (by omega)
      by_cases mine : p k = j
      · have picks := turns.picks k early
        have served := turns.served k early
        rw [mine] at picks served
        have after := (lag_of_turn picks served).2
        omega
      · have nearer := lag_of_other inside (turns.picks k early) (turns.served k early) mine
        omega

end Runs
end TorJet.Base.Rotation
