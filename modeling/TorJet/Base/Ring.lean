import Mathlib.Data.List.Basic

/-!
# Circular arrays

An array that is written at an index which moves on by one and starts again at the end: until the array is full,
the places before the index are the ones in use.
-/

namespace TorJet.Base
variable {α : Type*}

def store (cells : List α) (i : Nat) (x : α) : Option (List α) := if i < cells.length then some (cells.set i x) else none

/-- The elements that are in use are the first `total` ones, and the next one is written at `next`. -/
structure Used (p : α → Bool) (cells : List α) (next total : Nat) : Prop where
  inside : next < cells.length
  some_left : total < cells.length → next = total
  bound : total ≤ cells.length
  used : ∀ i x, cells[i]? = some x → (p x = true ↔ i < total)

section Ring
variable {p : α → Bool} {cells after : List α} {next total i : Nat} {x y : α}

theorem store_of_lt (lt : i < cells.length) : store cells i x = some (cells.set i x) := if_pos lt

theorem Used.store (used : Used p cells next total) : store cells next x = some (cells.set next x) :=
  store_of_lt used.inside

theorem used_replicate {n : Nat} {z : α} (unused : p z = false) (positive : 0 < n) :
    Used p (List.replicate n z) 0 0 where
  inside := by rwa [List.length_replicate]
  some_left := fun _ => rfl
  bound := Nat.zero_le _
  used := by
    intro i x at_i
    obtain rfl := List.eq_of_mem_replicate (List.mem_of_getElem? at_i)
    simp [unused]

theorem Used.push (used : Used p cells next total) (fresh : p x = true) :
    Used p (cells.set next x) ((next + 1) % cells.length) (if total < cells.length then total + 1 else total) where
  inside := by
    rw [List.length_set]
    exact Nat.mod_lt _ (Nat.zero_lt_of_lt used.inside)
  some_left := by
    intro lt
    rw [List.length_set] at lt
    have before : total < cells.length := by
      split at lt <;> omega
    rw [if_pos before] at lt ⊢
    rw [used.some_left before]
    exact Nat.mod_eq_of_lt lt
  bound := by
    rw [List.length_set]
    have bound := used.bound
    split <;> omega
  used := by
    intro i y at_i
    have inside := used.inside
    by_cases here : next = i
    · subst here
      rw [List.getElem?_set_self inside] at at_i
      obtain rfl := Option.some.inj at_i
      refine iff_of_true fresh ?_
      split
      · rename_i before
        rw [used.some_left before]
        exact Nat.lt_succ_self total
      · have bound := used.bound
        omega
    · rw [List.getElem?_set_ne here] at at_i
      rw [used.used i y at_i]
      split
      · rename_i before
        have next_eq := used.some_left before
        omega
      · rfl

theorem Used.countP (used : Used p cells next total) : cells.countP p = total := by
  rw [← List.take_append_drop total cells, List.countP_append]
  have first : (cells.take total).countP p = total := by
    rw [List.countP_eq_length.mpr, List.length_take, Nat.min_eq_left used.bound]
    intro x mem
    obtain ⟨i, at_i⟩ := List.mem_iff_getElem?.mp mem
    obtain ⟨lt, -⟩ := List.getElem?_eq_some_iff.mp at_i
    rw [List.length_take] at lt
    rw [List.getElem?_take_of_lt (by omega)] at at_i
    exact (used.used i x at_i).mpr (by omega)
  have rest : (cells.drop total).countP p = 0 := by
    rw [List.countP_eq_zero]
    intro x mem
    obtain ⟨i, at_i⟩ := List.mem_iff_getElem?.mp mem
    rw [List.getElem?_drop] at at_i
    intro holds
    have lt := (used.used _ x at_i).mp holds
    omega
  rw [first, rest, Nat.add_zero]

theorem Used.takeWhile (used : Used p cells next total) : (cells.takeWhile p).length = total := by
  rw [← List.take_append_drop total cells, List.takeWhile_append_of_pos, List.length_append, List.length_take,
    Nat.min_eq_left used.bound]
  · have stop : (cells.drop total).takeWhile p = [] := by
      cases rest : cells.drop total with
      | nil => rfl
      | cons x rest =>
          have there : cells[total]? = some x := by
            rw [← Nat.add_zero total, ← List.getElem?_drop, rest]
            rfl
          refine List.takeWhile_cons_of_neg fun holds => ?_
          exact Nat.lt_irrefl total ((used.used total x there).mp holds)
    rw [stop]
    rfl
  · intro x mem
    obtain ⟨i, at_i⟩ := List.mem_iff_getElem?.mp mem
    obtain ⟨lt, -⟩ := List.getElem?_eq_some_iff.mp at_i
    rw [List.length_take] at lt
    rw [List.getElem?_take_of_lt (by omega)] at at_i
    exact (used.used i x at_i).mpr (by omega)

end Ring
end TorJet.Base
