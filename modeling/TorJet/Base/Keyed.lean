import Mathlib.Data.List.Basic

/-!
# Sets kept as lists

A set in the order in which its elements came, where elements with the same key count as equal and the first one stays.
-/

namespace TorJet.Base.Keyed
variable {α β : Type*} [DecidableEq β]

def add (key : α → β) (set : List α) (x : α) : List α :=
  if set.any (fun y => key y = key x) then set else set ++ [x]

def ofList (key : α → β) (items : List α) : List α := items.foldl (add key) []

def Distinct (key : α → β) (set : List α) : Prop := set.Pairwise fun x y => key x ≠ key y

section Add
variable {key : α → β} {set items : List α} {x y : α} {k : β}

theorem mem_add (mem : x ∈ add key set y) : x ∈ set ∨ x = y := by
  rw [add] at mem
  split at mem
  · exact .inl mem
  · rcases List.mem_append.mp mem with old | new
    · exact .inl old
    · exact .inr (List.mem_singleton.mp new)

theorem any_add : (add key set y).any (fun x => key x = k) = (set.any (fun x => key x = k) || key y = k) := by
  rw [add]
  split
  · rename_i known
    obtain ⟨x, mem, same⟩ := List.any_eq_true.mp known
    rw [decide_eq_true_eq] at same
    cases here : set.any fun x => key x = k with
    | true => rfl
    | false =>
        rw [Bool.false_or, eq_comm, decide_eq_false_iff_not]
        intro equal
        have absent := List.any_eq_false.mp here x mem
        rw [decide_eq_true_eq] at absent
        exact absent (same.trans equal)
  · rw [List.any_append, List.any_cons, List.any_nil, Bool.or_false]

theorem Distinct.add (distinct : Distinct key set) (y : α) : Distinct key (add key set y) := by
  rw [Keyed.add]
  split
  · exact distinct
  · rename_i new
    refine List.pairwise_append.mpr ⟨distinct, List.pairwise_singleton .., ?_⟩
    intro x mem z single
    rw [List.mem_singleton.mp single]
    intro same
    exact new (List.any_eq_true.mpr ⟨x, mem, decide_eq_true same⟩)

theorem mem_foldl (mem : x ∈ items.foldl (add key) set) : x ∈ set ∨ x ∈ items := by
  induction items generalizing set with
  | nil => exact .inl mem
  | cons y items ih =>
      rw [List.foldl_cons] at mem
      rcases ih mem with old | later
      · rcases mem_add old with here | rfl
        · exact .inl here
        · exact .inr List.mem_cons_self
      · exact .inr (List.mem_cons_of_mem _ later)

theorem any_foldl : (items.foldl (add key) set).any (fun x => key x = k) =
    (set.any (fun x => key x = k) || items.any fun x => key x = k) := by
  induction items generalizing set with
  | nil => simp
  | cons y items ih => rw [List.foldl_cons, ih, any_add, List.any_cons, Bool.or_assoc]

theorem Distinct.foldl (distinct : Distinct key set) (items : List α) : Distinct key (items.foldl (Keyed.add key) set) := by
  induction items generalizing set with
  | nil => exact distinct
  | cons y items ih => exact ih (distinct.add y)

theorem foldl_known (known : ∀ y ∈ items, set.any (fun x => key x = key y) = true) : items.foldl (add key) set = set := by
  induction items with
  | nil => rfl
  | cons y items ih =>
      rw [List.foldl_cons, add, if_pos (known y List.mem_cons_self)]
      exact ih fun z mem => known z (List.mem_cons_of_mem _ mem)

theorem foldl_distinct (distinct : Distinct key (set ++ items)) : items.foldl (add key) set = set ++ items := by
  induction items generalizing set with
  | nil => simp
  | cons y items ih =>
      have new : set.any (fun x => key x = key y) = false := by
        rw [List.any_eq_false]
        intro x mem same
        exact (List.pairwise_append.mp distinct).2.2 x mem y List.mem_cons_self (of_decide_eq_true same)
      rw [List.foldl_cons, add, new, if_neg Bool.false_ne_true, ih]
      · simp
      · simpa using distinct

end Add

section OfList
variable {key : α → β} {items more : List α} {x : α} {k : β}

theorem mem_ofList (mem : x ∈ ofList key items) : x ∈ items := (mem_foldl mem).resolve_left List.not_mem_nil

theorem any_ofList : (ofList key items).any (fun x => key x = k) = items.any fun x => key x = k := by
  rw [ofList, any_foldl, List.any_nil, Bool.false_or]

theorem distinct_ofList (key : α → β) (items : List α) : Distinct key (ofList key items) := Distinct.foldl .nil items

theorem ofList_again (known : ∀ y ∈ more, items.any (fun x => key x = key y) = true) :
    ofList key (ofList key items ++ more) = ofList key items := by
  have same : (ofList key items).foldl (add key) [] = ofList key items := by
    rw [foldl_distinct, List.nil_append]
    exact distinct_ofList key items
  conv_lhs => rw [ofList, List.foldl_append, same]
  apply foldl_known
  intro y mem
  rw [any_ofList]
  exact known y mem

end OfList
end TorJet.Base.Keyed
