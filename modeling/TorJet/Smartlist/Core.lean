import Mathlib.Data.List.Nodup
import Mathlib.Data.List.Perm.Basic

/-! # Deletion from a smartlist: the last element takes the freed place -/

namespace TorJet.Smartlist
open scoped List
variable {α : Type*}

def del (sl : List α) (idx : Nat) : List α :=
  match sl.getLast? with
  | none => []
  | some last => (sl.set idx last).dropLast

/-- `smartlist_remove`, with the element given by a test that at most one element passes. -/
def remove (p : α → Bool) (sl : List α) : List α :=
  match sl.findIdx? p with
  | none => sl
  | some i => del sl i

/-- The order in which a loop with `SMARTLIST_DEL_CURRENT` in every round sees the elements. -/
def drainOrder : Nat → List α → List α
  | 0, _ => []
  | _ + 1, [] => []
  | fuel + 1, x :: rest => x :: drainOrder fuel (del (x :: rest) 0)

def drained (sl : List α) : List α := drainOrder sl.length sl

theorem del_concat (init : List α) (last : α) (i : Nat) :
    del (init ++ [last]) i = init.set i last := by
  rw [del, List.getLast?_concat]
  dsimp only
  by_cases range : i < init.length
  · rw [List.set_append_left _ _ range, List.dropLast_concat]
  · rw [List.set_eq_of_length_le (l := init) (by omega)]
    by_cases ends : i = init.length
    · subst ends
      simp
    · rw [List.set_eq_of_length_le (by simp; omega), List.dropLast_concat]

theorem del_perm {sl : List α} {i : Nat} {x : α} (here : sl[i]? = some x) :
    (x :: del sl i).Perm sl := by
  rcases List.eq_nil_or_concat sl with rfl | ⟨init, last, rfl⟩
  · cases here
  rw [List.concat_eq_append] at here ⊢
  rw [del_concat]
  by_cases range : i < init.length
  · rw [List.getElem?_append_left range, List.getElem?_eq_getElem range] at here
    obtain rfl := Option.some.inj here
    calc init[i] :: init.set i last
        _ ~ init[i] :: last :: init.eraseIdx i := .cons _ (List.set_perm_cons_eraseIdx range last)
        _ ~ last :: init[i] :: init.eraseIdx i := .swap _ _ _
        _ ~ last :: init := .cons _ (List.getElem_cons_eraseIdx_perm range)
        _ ~ init ++ [last] := (List.perm_append_singleton last init).symm
  · rw [List.getElem?_append_right (by omega)] at here
    have ends : i = init.length := by
      by_contra ne
      rw [List.getElem?_eq_none (by simp; omega)] at here
      cases here
    subst ends
    obtain rfl : last = x := by simpa using here
    rw [List.set_eq_of_length_le (Nat.le_refl _)]
    exact (List.perm_append_singleton last init).symm

theorem drainOrder_perm (fuel : Nat) (sl : List α) (enough : sl.length ≤ fuel) :
    (drainOrder fuel sl).Perm sl := by
  induction fuel generalizing sl with
  | zero =>
      obtain rfl : sl = [] := List.eq_nil_of_length_eq_zero (by omega)
      exact .refl _
  | succ fuel ih =>
      cases sl with
      | nil => exact .refl _
      | cons x rest =>
          have perm : (x :: del (x :: rest) 0).Perm (x :: rest) := del_perm rfl
          have len := perm.length_eq
          simp only [List.length_cons] at len enough
          exact (List.Perm.cons x (ih _ (by omega))).trans perm

theorem drained_perm (sl : List α) : (drained sl).Perm sl := drainOrder_perm _ sl (Nat.le_refl _)

theorem remove_perm {p : α → Bool} {sl : List α} {x : α} (found : sl.find? p = some x) :
    (x :: remove p sl).Perm sl := by
  obtain ⟨i, at_i, here⟩ : ∃ i, sl.findIdx? p = some i ∧ sl[i]? = some x := by
    rw [List.find?_eq_some_iff_getElem] at found
    obtain ⟨holds, i, range, rfl, before⟩ := found
    refine ⟨i, ?_, List.getElem?_eq_getElem range⟩
    rw [List.findIdx?_eq_some_iff_getElem]
    exact ⟨range, holds, fun j lt => by simpa using before j lt⟩
  rw [remove, at_i]
  exact del_perm here

theorem remove_eq_self {p : α → Bool} {sl : List α} (none : sl.find? p = none) :
    remove p sl = sl := by
  have : sl.findIdx? p = Option.none := by
    rw [List.findIdx?_eq_none_iff]
    intro x mem
    simpa using List.find?_eq_none.mp none x mem
  rw [remove, this]

section Key
variable {β : Type*} [DecidableEq β] {key : α → β}

theorem find?_key_iff {sl : List α} (nodup : (sl.map key).Nodup) {x : α} {b : β} :
    sl.find? (fun y => key y = b) = some x ↔ x ∈ sl ∧ key x = b := by
  constructor
  · intro found
    exact ⟨List.mem_of_find?_eq_some found, by simpa using List.find?_some found⟩
  · rintro ⟨mem, rfl⟩
    induction sl with
    | nil => cases mem
    | cons y sl ih =>
        rw [List.map_cons, List.nodup_cons] at nodup
        rw [List.find?_cons]
        rcases List.mem_cons.mp mem with rfl | later
        · simp
        · have ne : key y ≠ key x := fun eq => nodup.1 (eq ▸ List.mem_map_of_mem later)
          simpa [ne] using ih nodup.2 later

theorem find?_update {f : α → α} {a : β} (keeps : ∀ y, key y = a → key (f y) = a) (sl : List α)
    (b : β) :
    (sl.map fun y => if key y = a then f y else y).find? (fun y => key y = b) =
      if b = a then (sl.find? fun y => key y = b).map f else sl.find? fun y => key y = b := by
  induction sl with
  | nil => simp
  | cons y sl ih =>
      rw [List.map_cons, List.find?_cons, List.find?_cons, ih]
      by_cases here : key y = a
      · rw [if_pos here, keeps y here, here]
        by_cases same : a = b
        · simp [same]
        · simp [same]
      · rw [if_neg here]
        by_cases same : key y = b
        · have ne : b ≠ a := fun eq => here (same.trans eq)
          simp [same, ne]
        · simp [same]

theorem map_key_update {f : α → α} {a : β} (keeps : ∀ y, key y = a → key (f y) = a) (sl : List α) :
    (sl.map fun y => if key y = a then f y else y).map key = sl.map key := by
  rw [List.map_map]
  refine List.map_congr_left fun y _ => ?_
  simp only [Function.comp]
  split
  · rename_i here
    rw [keeps y here, here]
  · rfl

theorem find?_key_perm {sl sl' : List α} (nodup : (sl.map key).Nodup) (perm : sl.Perm sl') (b : β) :
    sl.find? (fun y => key y = b) = sl'.find? (fun y => key y = b) := by
  have nodup' : (sl'.map key).Nodup := (perm.map key).nodup_iff.mp nodup
  ext x
  rw [find?_key_iff nodup, find?_key_iff nodup', perm.mem_iff]

variable (key) in
theorem remove_keys {sl : List α} (nodup : (sl.map key).Nodup) (a : β) :
    ((remove (fun y => key y = a) sl).map key).Nodup ∧
      ∀ b, b ∈ (remove (fun y => key y = a) sl).map key ↔ b ∈ sl.map key ∧ b ≠ a := by
  cases found : sl.find? (fun y => key y = a) with
  | none =>
      have missing : a ∉ sl.map key := fun mem => by
        obtain ⟨y, isHere, keyY⟩ := List.mem_map.mp mem
        simpa [keyY] using List.find?_eq_none.mp found y isHere
      rw [remove_eq_self found]
      exact ⟨nodup, fun b => ⟨fun mem => ⟨mem, fun eq => missing (eq ▸ mem)⟩, And.left⟩⟩
  | some x =>
      have keyX : key x = a := by simpa using List.find?_some found
      have perm := (remove_perm found).map key
      rw [List.map_cons, keyX] at perm
      have split := List.nodup_cons.mp (perm.nodup_iff.mpr nodup)
      refine ⟨split.2, fun b => ?_⟩
      rw [← perm.mem_iff, List.mem_cons]
      refine ⟨fun mem => ⟨.inr mem, fun eq => split.1 (eq ▸ mem)⟩, ?_⟩
      rintro ⟨rfl | mem, ne⟩
      · exact absurd rfl ne
      · exact mem

theorem find?_remove {sl : List α} (nodup : (sl.map key).Nodup) {x : α} {a : β}
    (found : sl.find? (fun y => key y = a) = some x) (b : β) :
    (remove (fun y => key y = a) sl).find? (fun y => key y = b) =
      if b = a then none else sl.find? (fun y => key y = b) := by
  have perm := remove_perm found
  have keyX : key x = a := by simpa using List.find?_some found
  have whole := find?_key_perm nodup perm.symm b
  have nodup' := (perm.map key).nodup_iff.mpr nodup
  rw [List.map_cons, List.nodup_cons, keyX] at nodup'
  split
  · rename_i same
    subst same
    rw [List.find?_eq_none]
    intro y mem
    have ne : key y ≠ b := fun eq => nodup'.1 (List.mem_map.mpr ⟨y, mem, eq⟩)
    simpa using ne
  · rename_i ne
    rw [whole, List.find?_cons]
    simp [keyX, Ne.symm ne]

end Key

end TorJet.Smartlist

/-! ## A loop that deletes some of the elements it comes to -/

namespace TorJet.Smartlist
open scoped List
variable {α : Type*}

/-- A loop with `SMARTLIST_DEL_CURRENT` for the elements that pass the test, from the place `i` on; the last element
takes the freed place and is looked at there. -/
def delEachFrom (p : α → Bool) : Nat → Nat → List α → List α
  | 0, _, sl => sl
  | fuel + 1, i, sl =>
      match sl[i]? with
      | none => sl
      | some x => if p x then delEachFrom p fuel i (del sl i) else delEachFrom p fuel (i + 1) sl

def delEach (p : α → Bool) (sl : List α) : List α := delEachFrom p sl.length 0 sl

theorem del_append {sl before after : List α} {x : α} (split : sl = before ++ x :: after) :
    ∃ rest, del sl before.length = before ++ rest ∧ rest ~ after := by
  rcases List.eq_nil_or_concat after with rfl | ⟨init, last, rfl⟩
  · refine ⟨[], ?_, .refl _⟩
    rw [split, del_concat, List.set_eq_of_length_le (Nat.le_refl _), List.append_nil]
  · refine ⟨last :: init, ?_, ?_⟩
    · rw [split, List.concat_eq_append, ← List.cons_append, ← List.append_assoc, del_concat,
        List.set_append_right _ _ (Nat.le_refl _), Nat.sub_self]
      rfl
    · rw [List.concat_eq_append]
      exact (List.perm_append_singleton last init).symm

theorem delEachFrom_perm (p : α → Bool) (fuel : Nat) (before after : List α) (enough : after.length ≤ fuel) :
    delEachFrom p fuel before.length (before ++ after) ~ before ++ after.filter fun x => !p x := by
  induction fuel generalizing before after with
  | zero =>
      obtain rfl := List.eq_nil_of_length_eq_zero (Nat.le_zero.mp enough)
      simp [delEachFrom]
  | succ fuel ih =>
      cases after with
      | nil => simp [delEachFrom]
      | cons x after =>
          rw [List.length_cons, Nat.add_le_add_iff_right] at enough
          rw [delEachFrom, List.getElem?_append_right (Nat.le_refl _), Nat.sub_self, List.getElem?_cons_zero]
          dsimp only
          split
          · rename_i passes
            obtain ⟨rest, deleted, perm⟩ := del_append (rfl : before ++ x :: after = _)
            rw [deleted, List.filter_cons_of_neg (by simp [passes])]
            have shorter : rest.length ≤ fuel := by rwa [perm.length_eq]
            exact (ih before rest shorter).trans ((perm.filter _).append_left before)
          · rename_i stays
            have step := ih (before ++ [x]) after enough
            rw [List.length_append, List.length_singleton, List.append_assoc, List.append_assoc] at step
            rw [List.filter_cons_of_pos (by simpa using stays)]
            exact step

theorem delEach_perm (p : α → Bool) (sl : List α) : delEach p sl ~ sl.filter fun x => !p x :=
  delEachFrom_perm p sl.length [] sl (Nat.le_refl _)

end TorJet.Smartlist
