import Mathlib.Algebra.BigOperators.Group.List.Basic
import Mathlib.Algebra.Order.Ring.Nat
import Mathlib.Data.List.Basic
import Mathlib.Data.List.Count
import Mathlib.Data.List.Nodup

/-!
# Counting in lists
-/

/-!
## Counting into an array, and shuffling one

The counts of a list's keys in an array, the list that an array of counts stands for, and the shuffle that exchanges
each element with one before it.
-/

namespace TorJet.Base
variable {α : Type*}

/-! ## Tallies -/

def bump (counts : List Nat) (i : Nat) : Option (List Nat) := counts[i]?.map fun n => counts.set i (n + 1)

def tally (key : α → Nat) : List α → List Nat → Option (List Nat)
  | [], counts => some counts
  | x :: l, counts => (bump counts (key x)).bind (tally key l)

def spread (value : Nat → α) (counts : Nat → Nat) (n : Nat) : List α :=
  (List.range n).flatMap fun i => List.replicate (counts i) (value i)

section Tally
variable {key : α → Nat} {l : List α} {n : Nat} {counts : Nat → Nat} {value : Nat → α} {p : α → Bool}

theorem bump_map {i : Nat} (counts : Nat → Nat) (inside : i < n) :
    bump ((List.range n).map counts) i = some ((List.range n).map fun j => counts j + if i = j then 1 else 0) := by
  have there : ((List.range n).map counts)[i]? = some (counts i) := by
    rw [List.getElem?_map, List.getElem?_range inside, Option.map_some]
  rw [bump, there, Option.map_some]
  congr 1
  refine List.ext_getElem? fun j => ?_
  rw [List.getElem?_set, List.length_map, List.length_range, List.getElem?_map, List.getElem?_map]
  by_cases same : i = j
  · subst same
    rw [if_pos rfl, if_pos inside, List.getElem?_range inside, Option.map_some, if_pos rfl]
  · rw [if_neg same]
    by_cases inside' : j < n
    · rw [List.getElem?_range inside', Option.map_some, Option.map_some, if_neg same, Nat.add_zero]
    · rw [List.getElem?_eq_none (by rw [List.length_range]; omega)]
      rfl

theorem tally_map (counts : Nat → Nat) (inside : ∀ x ∈ l, key x < n) :
    tally key l ((List.range n).map counts) =
      some ((List.range n).map fun j => counts j + l.countP fun x => key x = j) := by
  induction l generalizing counts with
  | nil => rfl
  | cons x l ih =>
      obtain ⟨first, others⟩ := List.forall_mem_cons.mp inside
      rw [tally, bump_map counts first, Option.bind_some, ih _ others]
      congr 1
      refine List.map_congr_left fun j _ => ?_
      rw [List.countP_cons, Nat.add_assoc]
      simp only [decide_eq_true_eq]
      omega

theorem tally_replicate (inside : ∀ x ∈ l, key x < n) :
    tally key l (List.replicate n 0) = some ((List.range n).map fun j => l.countP fun x => key x = j) := by
  have zeros : List.replicate n 0 = (List.range n).map fun _ => 0 := by
    rw [List.map_const', List.length_range]
  rw [zeros, tally_map _ inside]
  simp only [Nat.zero_add]

theorem sum_single (value : Nat → Nat) (k n : Nat) :
    ((List.range n).map fun j => if k = j then value j else 0).sum = if k < n then value k else 0 := by
  induction n with
  | zero => rfl
  | succ n ih =>
      rw [List.range_succ, List.map_append, List.sum_append, ih, List.map_singleton, List.sum_singleton]
      by_cases last : k = n
      · rw [if_neg (by omega), if_pos last, if_pos (by omega), Nat.zero_add, last]
      · rw [if_neg last, Nat.add_zero]
        by_cases before : k < n
        · rw [if_pos before, if_pos (by omega)]
        · rw [if_neg before, if_neg (by omega)]

theorem sum_countP (inside : ∀ x ∈ l, key x < n) :
    ((List.range n).map fun j => l.countP fun x => key x = j).sum = l.length := by
  induction l with
  | nil => simp
  | cons x l ih =>
      obtain ⟨first, others⟩ := List.forall_mem_cons.mp inside
      simp only [List.countP_cons, decide_eq_true_eq]
      rw [List.sum_map_add, ih others, List.length_cons]
      rw [sum_single (fun _ => 1), if_pos first]

theorem length_spread : (spread value counts n).length = ((List.range n).map counts).sum := by
  rw [spread, List.length_flatMap]
  simp only [List.length_replicate]

theorem mem_spread {x : α} : x ∈ spread value counts n ↔ ∃ i < n, counts i ≠ 0 ∧ x = value i := by
  rw [spread, List.mem_flatMap]
  simp only [List.mem_range, List.mem_replicate]

theorem countP_spread (i : Nat) (only : ∀ j, p (value j) = decide (i = j)) (absent : n ≤ i → counts i = 0) :
    (spread value counts n).countP p = counts i := by
  have one (j : Nat) : (List.replicate (counts j) (value j)).countP p = if i = j then counts j else 0 := by
    rw [List.countP_replicate, only]
    simp only [decide_eq_true_eq]
  rw [spread, List.countP_flatMap]
  simp only [Function.comp_def, one]
  rw [sum_single]
  by_cases inside : i < n
  · rw [if_pos inside]
  · rw [if_neg inside, absent (Nat.not_lt.mp inside)]

end Tally

/-! ## Shuffles -/

def exchange (cells : List α) (i j : Nat) : Option (List α) :=
  cells[i]?.bind fun x => cells[j]?.map fun y => (cells.set i y).set j x

def shuffle (draw : (n : Nat) → Fin (n + 1)) : Nat → List α → Option (List α)
  | n + 2, cells => (exchange cells (draw (n + 1)) (n + 1)).bind (shuffle draw (n + 1))
  | _, cells => some cells

section Shuffle
variable {draw : (n : Nat) → Fin (n + 1)} {cells : List α} {i j n : Nat}

theorem exchange_perm (first : i < cells.length) (second : j < cells.length) :
    ∃ after, exchange cells i j = some after ∧ after.Perm cells := by
  refine ⟨_, ?_, List.set_set_perm first second⟩
  rw [exchange, List.getElem?_eq_getElem first, List.getElem?_eq_getElem second]
  rfl

theorem shuffle_perm (inside : n ≤ cells.length) : ∃ after, shuffle draw n cells = some after ∧ after.Perm cells := by
  induction n generalizing cells with
  | zero => exact ⟨cells, rfl, .refl cells⟩
  | succ n ih =>
      cases n with
      | zero => exact ⟨cells, rfl, .refl cells⟩
      | succ n =>
          obtain ⟨mid, exchanged, perm⟩ := exchange_perm (i := draw (n + 1)) (j := n + 1)
            (Nat.lt_of_lt_of_le (draw (n + 1)).isLt inside) inside
          obtain ⟨after, shuffled, perm'⟩ := ih (perm.length_eq ▸ Nat.le_of_succ_le inside)
          refine ⟨after, ?_, perm'.trans perm⟩
          rw [shuffle, exchanged, Option.bind_some, shuffled]

end Shuffle
end TorJet.Base
