import Mathlib.Data.List.DropRight
import Mathlib.Data.List.TakeDrop
import Mathlib.Data.List.TakeWhile

/-!
# Joined lists

Lists joined by an element that none of them has, and where such a join is cut off.
-/

/-!
## Cutting a list

What a list is cut into at its first element of a kind, where the parts are known.
-/

namespace TorJet.Base
variable {α : Type*} {p : α → Bool} {w tail : List α}

theorem takeWhile_append (all : ∀ c ∈ w, p c = true) (stops : ∀ c ∈ tail.head?, p c = false) :
    (w ++ tail).takeWhile p = w := by
  have after : tail.takeWhile p = [] := by
    cases tail with
    | nil => rfl
    | cons c tail => rw [List.takeWhile_cons_of_neg (by rw [stops c rfl]; exact Bool.false_ne_true)]
  rw [List.takeWhile_append_of_pos all, after, List.append_nil]

theorem dropWhile_append (all : ∀ c ∈ w, p c = true) (stops : ∀ c ∈ tail.head?, p c = false) :
    (w ++ tail).dropWhile p = tail := by
  have after : tail.dropWhile p = tail := by
    cases tail with
    | nil => rfl
    | cons c tail => rw [List.dropWhile_cons_of_neg (by rw [stops c rfl]; exact Bool.false_ne_true)]
  rw [List.dropWhile_append_of_pos all, after]

theorem span_append (all : ∀ c ∈ w, p c = true) (stops : ∀ c ∈ tail.head?, p c = false) :
    (w ++ tail).span p = (w, tail) := by
  rw [List.span_eq_takeWhile_dropWhile, takeWhile_append all stops, dropWhile_append all stops]

theorem dropWhile_stops (p : α → Bool) (l : List α) : ∀ c ∈ (l.dropWhile p).head?, p c = false := by
  intro c head
  have stops := List.head?_dropWhile_not p l
  rw [Option.mem_def.mp head] at stops
  exact stops

theorem span_split (p : α → Bool) (l : List α) :
    l = (l.span p).1 ++ (l.span p).2 ∧ (∀ c ∈ (l.span p).1, p c = true) ∧ ∀ c ∈ (l.span p).2.head?, p c = false := by
  rw [List.span_eq_takeWhile_dropWhile]
  exact ⟨(List.takeWhile_append_dropWhile).symm, fun c mem => List.mem_takeWhile_imp mem, dropWhile_stops p l⟩

theorem drop_takeWhile (p : α → Bool) (l : List α) : l.drop (l.takeWhile p).length = l.dropWhile p := by
  calc l.drop (l.takeWhile p).length
    _ = (l.takeWhile p ++ l.dropWhile p).drop (l.takeWhile p).length := by rw [List.takeWhile_append_dropWhile]
    _ = l.dropWhile p := List.drop_left

theorem rdropWhile_append_cons {c : α} (stop : p c = false) (x u : List α) :
    (x ++ c :: u).rdropWhile p = x ++ c :: u.rdropWhile p ∧ (x ++ c :: u).rtakeWhile p = u.rtakeWhile p := by
  induction u using List.reverseRecOn with
  | nil =>
      rw [List.rdropWhile_concat_neg _ _ _ (by rw [stop]; exact Bool.false_ne_true),
        List.rtakeWhile_concat_neg _ _ _ (by rw [stop]; exact Bool.false_ne_true)]
      exact ⟨rfl, rfl⟩
  | append_singleton u d ih =>
      rw [← List.cons_append, ← List.append_assoc, List.rdropWhile_concat, List.rtakeWhile_concat, List.rdropWhile_concat,
        List.rtakeWhile_concat]
      cases p d with
      | true => exact ⟨ih.1, by rw [if_pos rfl, if_pos rfl, ih.2]⟩
      | false => simp

end TorJet.Base
