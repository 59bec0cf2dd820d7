import Mathlib.Order.ConditionallyCompleteLattice.Basic
import Mathlib.Order.Lattice.Nat
import Mathlib.Data.List.Basic

/-!
# Longest common subsequences

The length of a longest common subsequence of two lists, and what follows for it when the lists are taken apart.
-/

namespace TorJet.Base
open scoped List

noncomputable def lcs {α : Type*} (xs ys : List α) : Nat := sSup {n | ∃ c, c <+ xs ∧ c <+ ys ∧ c.length = n}

section Lcs
variable {α : Type*} {xs ys zs c : List α} {a b : α}

theorem le_lcs (left : c <+ xs) (right : c <+ ys) : c.length ≤ lcs xs ys := by
  apply le_csSup
  · refine ⟨xs.length, ?_⟩
    rintro n ⟨d, left, -, rfl⟩
    exact left.length_le
  · exact ⟨c, left, right, rfl⟩

theorem exists_lcs (xs ys : List α) : ∃ c, c <+ xs ∧ c <+ ys ∧ c.length = lcs xs ys := by
  apply Nat.sSup_mem (s := {n | ∃ c, c <+ xs ∧ c <+ ys ∧ c.length = n})
  · exact ⟨0, [], List.nil_sublist xs, List.nil_sublist ys, rfl⟩
  · refine ⟨xs.length, ?_⟩
    rintro n ⟨d, left, -, rfl⟩
    exact left.length_le

theorem lcs_le {n : Nat} (bound : ∀ c, c <+ xs → c <+ ys → c.length ≤ n) : lcs xs ys ≤ n := by
  obtain ⟨c, left, right, length⟩ := exists_lcs xs ys
  rw [← length]
  exact bound c left right

theorem lcs_comm (xs ys : List α) : lcs xs ys = lcs ys xs := by
  apply Nat.le_antisymm
  · exact lcs_le fun c left right => le_lcs right left
  · exact lcs_le fun c left right => le_lcs right left

theorem lcs_mono {us vs : List α} (left : xs <+ us) (right : ys <+ vs) : lcs xs ys ≤ lcs us vs :=
  lcs_le fun _ first second => le_lcs (first.trans left) (second.trans right)

theorem lcs_nil_left (ys : List α) : lcs [] ys = 0 := by
  apply Nat.le_zero.mp
  apply lcs_le
  intro c left _
  exact left.length_le

theorem lcs_nil_right (xs : List α) : lcs xs [] = 0 := by
  rw [lcs_comm, lcs_nil_left]

theorem lcs_reverse (xs ys : List α) : lcs xs.reverse ys.reverse = lcs xs ys := by
  have le (xs ys : List α) : lcs xs.reverse ys.reverse ≤ lcs xs ys := by
    apply lcs_le
    intro c left right
    rw [← List.length_reverse]
    exact le_lcs (List.reverse_sublist.mp (by simpa using left)) (List.reverse_sublist.mp (by simpa using right))
  apply Nat.le_antisymm (le xs ys)
  have back := le xs.reverse ys.reverse
  rwa [List.reverse_reverse, List.reverse_reverse] at back

theorem lcs_cons_same (a : α) (xs ys : List α) : lcs (a :: xs) (a :: ys) = lcs xs ys + 1 := by
  apply Nat.le_antisymm
  · apply lcs_le
    intro c left right
    have tails (d : List α) (zs : List α) (sub : d <+ a :: zs) : d.tail <+ zs := by
      simpa using sub.tail
    have short := le_lcs (tails c xs left) (tails c ys right)
    rw [List.length_tail] at short
    omega
  · obtain ⟨c, left, right, length⟩ := exists_lcs xs ys
    have long := le_lcs (left.cons_cons a) (right.cons_cons a)
    rwa [List.length_cons, length] at long

theorem lcs_cons_ne (differ : a ≠ b) (xs ys : List α) :
    lcs (a :: xs) (b :: ys) = max (lcs (a :: xs) ys) (lcs xs (b :: ys)) := by
  apply Nat.le_antisymm
  · apply lcs_le
    intro c left right
    rcases List.sublist_cons_iff.mp left with first | ⟨d, rfl, -⟩
    · exact (le_lcs first right).trans (Nat.le_max_right _ _)
    · rcases List.sublist_cons_iff.mp right with second | ⟨e, same, -⟩
      · exact (le_lcs left second).trans (Nat.le_max_left _ _)
      · exact absurd (List.cons.inj same).1 differ
  · apply Nat.max_le.mpr
    exact ⟨lcs_mono (.refl _) (List.sublist_cons_self b ys), lcs_mono (List.sublist_cons_self a xs) (.refl _)⟩

theorem lcs_concat_same (a : α) (xs ys : List α) : lcs (xs ++ [a]) (ys ++ [a]) = lcs xs ys + 1 := by
  rw [← lcs_reverse, List.reverse_append, List.reverse_append, List.reverse_singleton, List.singleton_append,
    List.singleton_append, lcs_cons_same, lcs_reverse]

theorem lcs_concat_ne (differ : a ≠ b) (xs ys : List α) :
    lcs (xs ++ [a]) (ys ++ [b]) = max (lcs (xs ++ [a]) ys) (lcs xs (ys ++ [b])) := by
  have back (zs : List α) (d : α) : (zs ++ [d]).reverse = d :: zs.reverse := List.reverse_concat
  rw [← lcs_reverse, back, back, lcs_cons_ne differ, ← back, ← back, lcs_reverse, lcs_reverse]

theorem lcs_append_left (zs xs ys : List α) : lcs (zs ++ xs) (zs ++ ys) = zs.length + lcs xs ys := by
  induction zs with
  | nil => simp
  | cons a zs ih =>
      rw [List.cons_append, List.cons_append, lcs_cons_same, ih, List.length_cons]
      omega

theorem lcs_append_right (xs ys zs : List α) : lcs (xs ++ zs) (ys ++ zs) = lcs xs ys + zs.length := by
  rw [← lcs_reverse, List.reverse_append, List.reverse_append, lcs_append_left, lcs_reverse, List.length_reverse,
    Nat.add_comm]

theorem lcs_singleton [DecidableEq α] (a : α) (ys : List α) : lcs [a] ys = if a ∈ ys then 1 else 0 := by
  apply Nat.le_antisymm
  · apply lcs_le
    intro c left right
    rcases List.sublist_singleton.mp left with rfl | rfl
    · exact Nat.zero_le _
    · rw [if_pos (List.singleton_sublist.mp right), List.length_singleton]
  · split
    · rename_i mem
      exact le_lcs (.refl [a]) (List.singleton_sublist.mpr mem)
    · exact Nat.zero_le _

theorem lcs_add_le (us vs xs ys : List α) : lcs us xs + lcs vs ys ≤ lcs (us ++ vs) (xs ++ ys) := by
  obtain ⟨c, left, right, length⟩ := exists_lcs us xs
  obtain ⟨d, left', right', length'⟩ := exists_lcs vs ys
  have long := le_lcs (left.append left') (right.append right')
  rwa [List.length_append, length, length'] at long

theorem exists_split (us vs ys : List α) :
    ∃ i ≤ ys.length, lcs (us ++ vs) ys = lcs us (ys.take i) + lcs vs (ys.drop i) := by
  obtain ⟨c, left, right, length⟩ := exists_lcs (us ++ vs) ys
  obtain ⟨c₁, c₂, rfl, first, second⟩ := List.sublist_append_iff.mp left
  obtain ⟨y₁, y₂, rfl, first', second'⟩ := List.append_sublist_iff.mp right
  refine ⟨y₁.length, by rw [List.length_append]; omega, ?_⟩
  rw [List.take_left, List.drop_left]
  apply Nat.le_antisymm
  · rw [← length, List.length_append]
    exact Nat.add_le_add (le_lcs first first') (le_lcs second second')
  · exact lcs_add_le us vs y₁ y₂

end Lcs
end TorJet.Base
