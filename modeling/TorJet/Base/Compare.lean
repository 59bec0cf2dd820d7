import Mathlib.Data.List.Sort
import Mathlib.Data.List.Forall2

/-!
# Comparison functions

Functions that compare like `strcmp` does, by the sign of what they return, and what sorting with one leaves.
-/

namespace TorJet.Base
open scoped List
variable {α β : Type*}

structure Orders (S : α → Prop) (cmp : α → α → Int) : Prop where
  swap : ∀ a b, S a → S b → (cmp b a < 0 ↔ 0 < cmp a b)
  trans : ∀ a b c, S a → S b → S c → cmp a b ≤ 0 → cmp b c ≤ 0 → cmp a c ≤ 0

def thenCompare (i j : Int) : Int := if i ≠ 0 then i else j

section Lex
variable {i j : Int}

theorem thenCompare_of_ne (first : i ≠ 0) : thenCompare i j = i := if_pos first

theorem thenCompare_assoc {k : Int} : thenCompare (thenCompare i j) k = thenCompare i (thenCompare j k) := by
  by_cases first : i = 0
  · rw [first]
    simp [thenCompare]
  · rw [thenCompare_of_ne first, thenCompare_of_ne first, thenCompare_of_ne first]

@[simp] theorem thenCompare_zero : thenCompare 0 j = j := if_neg (not_not.mpr rfl)

end Lex

namespace Orders
variable {S T : α → Prop} {cmp cmp' : α → α → Int} {a b c : α}

theorem mono (orders : Orders T cmp) (sub : ∀ a, S a → T a) : Orders S cmp where
  swap a b inA inB := orders.swap a b (sub a inA) (sub b inB)
  trans a b c inA inB inC := orders.trans a b c (sub a inA) (sub b inB) (sub c inC)

theorem congr (orders : Orders S cmp) (same : ∀ a b, S a → S b → cmp' a b = cmp a b) : Orders S cmp' where
  swap a b inA inB := by
    rw [same a b inA inB, same b a inB inA]
    exact orders.swap a b inA inB
  trans a b c inA inB inC := by
    rw [same a b inA inB, same b c inB inC, same a c inA inC]
    exact orders.trans a b c inA inB inC

theorem comap {S : β → Prop} {cmp : β → β → Int} (orders : Orders S cmp) (f : α → β) :
    Orders (fun a => S (f a)) fun a b => cmp (f a) (f b) where
  swap a b := orders.swap (f a) (f b)
  trans a b c := orders.trans (f a) (f b) (f c)

theorem refl (orders : Orders S cmp) (inA : S a) : cmp a a = 0 := by
  have := orders.swap a a inA inA
  omega

theorem zero_comm (orders : Orders S cmp) (inA : S a) (inB : S b) : cmp a b = 0 ↔ cmp b a = 0 := by
  have one := orders.swap a b inA inB
  have other := orders.swap b a inB inA
  omega

theorem total (orders : Orders S cmp) (inA : S a) (inB : S b) : cmp a b ≤ 0 ∨ cmp b a ≤ 0 := by
  have := orders.swap a b inA inB
  omega

theorem eq_of_le_of_le (orders : Orders S cmp) (inA : S a) (inB : S b) (le : cmp a b ≤ 0) (ge : cmp b a ≤ 0) :
    cmp a b = 0 := by
  have := orders.swap b a inB inA
  omega

theorem zero_trans (orders : Orders S cmp) (inA : S a) (inB : S b) (inC : S c) (first : cmp a b = 0)
    (second : cmp b c = 0) : cmp a c = 0 := by
  have le := orders.trans a b c inA inB inC first.le second.le
  have ge := orders.trans c b a inC inB inA ((orders.zero_comm inB inC).mp second).le
    ((orders.zero_comm inA inB).mp first).le
  exact orders.eq_of_le_of_le inA inC le ge

theorem lt_of_lt_of_le (orders : Orders S cmp) (inA : S a) (inB : S b) (inC : S c) (first : cmp a b < 0)
    (second : cmp b c ≤ 0) : cmp a c < 0 := by
  by_contra not
  have back : cmp c a ≤ 0 := by
    have := orders.swap c a inC inA
    omega
  have loop := orders.trans b c a inB inC inA second back
  have := orders.swap b a inB inA
  omega

theorem lt_of_le_of_lt (orders : Orders S cmp) (inA : S a) (inB : S b) (inC : S c) (first : cmp a b ≤ 0)
    (second : cmp b c < 0) : cmp a c < 0 := by
  by_contra not
  have back : cmp c a ≤ 0 := by
    have := orders.swap c a inC inA
    omega
  have loop := orders.trans c a b inC inA inB back first
  have := orders.swap c b inC inB
  omega

theorem of_key (key : α → Int)
    (sign : ∀ a b, S a → S b → (cmp a b < 0 ↔ key a < key b) ∧ (0 < cmp a b ↔ key b < key a)) : Orders S cmp where
  swap a b inA inB := by
    rw [(sign b a inB inA).1, (sign a b inA inB).2]
  trans a b c inA inB inC first second := by
    have one := sign a b inA inB
    have two := sign b c inB inC
    have both := sign a c inA inC
    omega

theorem lex (first : Orders S cmp)
    (swap : ∀ a b, S a → S b → cmp a b = 0 → (cmp' b a < 0 ↔ 0 < cmp' a b))
    (trans : ∀ a b c, S a → S b → S c → cmp a b = 0 → cmp b c = 0 → cmp' a b ≤ 0 → cmp' b c ≤ 0 → cmp' a c ≤ 0) :
    Orders S fun a b => thenCompare (cmp a b) (cmp' a b) where
  swap a b inA inB := by
    by_cases same : cmp a b = 0
    · rw [same, (first.zero_comm inA inB).mp same, thenCompare_zero, thenCompare_zero]
      exact swap a b inA inB same
    · have other : cmp b a ≠ 0 := fun zero => same ((first.zero_comm inB inA).mp zero)
      rw [thenCompare_of_ne same, thenCompare_of_ne other]
      exact first.swap a b inA inB
  trans a b c inA inB inC le le' := by
    by_cases one : cmp a b = 0
    · rw [one, thenCompare_zero] at le
      by_cases two : cmp b c = 0
      · rw [two, thenCompare_zero] at le'
        rw [first.zero_trans inA inB inC one two, thenCompare_zero]
        exact trans a b c inA inB inC one two le le'
      · rw [thenCompare_of_ne two] at le'
        have less := first.lt_of_le_of_lt inA inB inC one.le (by omega)
        rw [thenCompare_of_ne less.ne]
        exact less.le
    · rw [thenCompare_of_ne one] at le
      have le' : cmp b c ≤ 0 := by
        by_cases two : cmp b c = 0
        · exact two.le
        · rwa [thenCompare_of_ne two] at le'
      have less := first.lt_of_lt_of_le inA inB inC (by omega) le'
      rw [thenCompare_of_ne less.ne]
      exact less.le

theorem andThen (first : Orders S cmp) (second : Orders S cmp') :
    Orders S fun a b => thenCompare (cmp a b) (cmp' a b) :=
  first.lex (fun a b inA inB _ => second.swap a b inA inB) fun a b c inA inB inC _ _ => second.trans a b c inA inB inC

theorem exists_least {l : List α} (orders : Orders (· ∈ l) cmp) (some : l ≠ []) : ∃ m ∈ l, ∀ a ∈ l, cmp m a ≤ 0 := by
  have least (rest : List α) (m : α) (sub : ∀ a ∈ m :: rest, a ∈ l) : ∃ m' ∈ m :: rest, ∀ a ∈ m :: rest, cmp m' a ≤ 0 := by
    induction rest generalizing m with
    | nil =>
        refine ⟨m, List.mem_cons_self, fun a mem => ?_⟩
        rw [List.mem_singleton.mp mem, orders.refl (sub m List.mem_cons_self)]
    | cons x rest ih =>
        obtain ⟨m', mem, le⟩ := ih x fun a mem => sub a (List.mem_cons_of_mem _ mem)
        have inM := sub m List.mem_cons_self
        have inM' := sub m' (List.mem_cons_of_mem _ mem)
        rcases orders.total inM inM' with below | above
        · refine ⟨m, List.mem_cons_self, List.forall_mem_cons.mpr ⟨(orders.refl inM).le, fun a later => ?_⟩⟩
          exact orders.trans m m' a inM inM' (sub a (List.mem_cons_of_mem _ later)) below (le a later)
        · exact ⟨m', List.mem_cons_of_mem _ mem, List.forall_mem_cons.mpr ⟨above, le⟩⟩
  cases l with
  | nil => exact absurd rfl some
  | cons m rest => exact least rest m fun _ mem => mem

end Orders

/-- `qsort`: it sorts what the comparison orders. Elements that compare equal may come in any order. -/
structure Qsort (cmp : α → α → Int) where
  run : List α → List α
  spec : ∀ l, Orders (· ∈ l) cmp → (run l).Perm l ∧ (run l).Pairwise fun a b => cmp a b ≤ 0

/-- `smartlist_uniq`: of elements in a row that compare equal, the first stays. -/
def uniqAfter (cmp : α → α → Int) (last : α) : List α → List α
  | [] => []
  | a :: l => if cmp last a = 0 then uniqAfter cmp last l else a :: uniqAfter cmp a l

def uniq (cmp : α → α → Int) : List α → List α
  | [] => []
  | a :: l => a :: uniqAfter cmp a l

section Uniq
variable {cmp : α → α → Int} {l l' : List α} {a b : α}

theorem uniqAfter_sublist (last : α) (l : List α) : uniqAfter cmp last l <+ l := by
  induction l generalizing last with
  | nil => exact List.Sublist.slnil
  | cons a l ih =>
      rw [uniqAfter]
      split
      · exact (ih last).cons a
      · exact (ih a).cons_cons a

theorem uniq_sublist (l : List α) : uniq cmp l <+ l := by
  cases l with
  | nil => exact List.Sublist.slnil
  | cons a l => exact (uniqAfter_sublist a l).cons_cons a

theorem exists_uniqAfter (orders : Orders (· ∈ l') cmp) {last : α} (there : ∀ x ∈ last :: l, x ∈ l') (mem : a ∈ l) :
    cmp a last = 0 ∨ ∃ b ∈ uniqAfter cmp last l, cmp a b = 0 := by
  induction l generalizing last with
  | nil => cases mem
  | cons x l ih =>
      have inLast := there last List.mem_cons_self
      have inX := there x (List.mem_cons_of_mem _ List.mem_cons_self)
      have rest : ∀ y ∈ l, y ∈ l' := fun y mem => there y (List.mem_cons_of_mem _ (List.mem_cons_of_mem _ mem))
      rw [uniqAfter]
      split
      · rename_i same
        rcases List.mem_cons.mp mem with rfl | later
        · exact .inl ((orders.zero_comm inLast inX).mp same)
        · exact ih (List.forall_mem_cons.mpr ⟨inLast, rest⟩) later
      · right
        rcases List.mem_cons.mp mem with rfl | later
        · exact ⟨a, List.mem_cons_self, orders.refl inX⟩
        · rcases ih (List.forall_mem_cons.mpr ⟨inX, rest⟩) later with equal | ⟨b, kept, equal⟩
          · exact ⟨x, List.mem_cons_self, equal⟩
          · exact ⟨b, List.mem_cons_of_mem _ kept, equal⟩

theorem exists_uniq (orders : Orders (· ∈ l) cmp) (mem : a ∈ l) : ∃ b ∈ uniq cmp l, cmp a b = 0 := by
  cases l with
  | nil => cases mem
  | cons x l =>
      rcases List.mem_cons.mp mem with rfl | later
      · exact ⟨a, List.mem_cons_self, orders.refl List.mem_cons_self⟩
      · rcases exists_uniqAfter orders (fun y mem => mem) later with equal | ⟨b, kept, equal⟩
        · exact ⟨x, List.mem_cons_self, equal⟩
        · exact ⟨b, List.mem_cons_of_mem _ kept, equal⟩

theorem uniqAfter_strict (orders : Orders (· ∈ l') cmp) {last : α} (there : ∀ x ∈ last :: l, x ∈ l')
    (sorted : (last :: l).Pairwise fun a b => cmp a b ≤ 0) :
    (last :: uniqAfter cmp last l).Pairwise fun a b => cmp a b < 0 := by
  induction l generalizing last with
  | nil => exact List.pairwise_singleton _ _
  | cons x l ih =>
      have inLast := there last List.mem_cons_self
      have inX := there x (List.mem_cons_of_mem _ List.mem_cons_self)
      have rest : ∀ y ∈ l, y ∈ l' := fun y mem => there y (List.mem_cons_of_mem _ (List.mem_cons_of_mem _ mem))
      obtain ⟨least, tail⟩ := List.pairwise_cons.mp sorted
      rw [uniqAfter]
      split
      · refine ih (List.forall_mem_cons.mpr ⟨inLast, rest⟩) (List.pairwise_cons.mpr ⟨fun y mem => ?_, ?_⟩)
        · exact least y (List.mem_cons_of_mem _ mem)
        · exact (List.pairwise_cons.mp tail).2
      · rename_i differs
        have strict := ih (List.forall_mem_cons.mpr ⟨inX, rest⟩) tail
        refine List.pairwise_cons.mpr ⟨fun y mem => ?_, strict⟩
        have less : cmp last x < 0 := by
          have := least x List.mem_cons_self
          omega
        rcases List.mem_cons.mp mem with rfl | later
        · exact less
        · have inY := rest y ((uniqAfter_sublist x l).subset later)
          exact orders.lt_of_lt_of_le inLast inX inY less ((List.pairwise_cons.mp strict).1 y later).le

theorem uniq_strict (orders : Orders (· ∈ l) cmp) (sorted : l.Pairwise fun a b => cmp a b ≤ 0) :
    (uniq cmp l).Pairwise fun a b => cmp a b < 0 := by
  cases l with
  | nil => exact List.Pairwise.nil
  | cons a l => exact uniqAfter_strict orders (fun _ mem => mem) sorted

theorem forall₂_of_strict {S : α → Prop} (orders : Orders S cmp) (inS : ∀ a ∈ l, S a) (inS' : ∀ a ∈ l', S a)
    (strict : l.Pairwise fun a b => cmp a b < 0) (strict' : l'.Pairwise fun a b => cmp a b < 0)
    (into : ∀ a ∈ l, ∃ b ∈ l', cmp a b = 0) (back : ∀ b ∈ l', ∃ a ∈ l, cmp a b = 0) :
    List.Forall₂ (fun a b => cmp a b = 0) l l' := by
  induction l generalizing l' with
  | nil =>
      cases l' with
      | nil => exact .nil
      | cons b l' =>
          obtain ⟨_, mem, -⟩ := back b List.mem_cons_self
          cases mem
  | cons a l ih =>
      cases l' with
      | nil =>
          obtain ⟨_, mem, -⟩ := into a List.mem_cons_self
          cases mem
      | cons b l' =>
          obtain ⟨inA, rest⟩ := List.forall_mem_cons.mp inS
          obtain ⟨inB, rest'⟩ := List.forall_mem_cons.mp inS'
          obtain ⟨first, strict⟩ := List.pairwise_cons.mp strict
          obtain ⟨first', strict'⟩ := List.pairwise_cons.mp strict'
          -- each head is no greater than the element of the other list that equals the other head
          have heads : cmp a b = 0 := by
            obtain ⟨y, inL', equal⟩ := into a List.mem_cons_self
            obtain ⟨x, inL, equal'⟩ := back b List.mem_cons_self
            have inY := inS' y inL'
            have inX := inS x inL
            have ax : cmp a x ≤ 0 := by
              rcases List.mem_cons.mp inL with rfl | later
              · exact (orders.refl inA).le
              · exact (first x later).le
            have byY : cmp b y ≤ 0 := by
              rcases List.mem_cons.mp inL' with rfl | later
              · exact (orders.refl inB).le
              · exact (first' y later).le
            have ab := orders.trans a x b inA inX inB ax equal'.le
            have ba := orders.trans b y a inB inY inA byY ((orders.zero_comm inA inY).mp equal).le
            exact orders.eq_of_le_of_le inA inB ab ba
          refine .cons heads (ih rest rest' strict strict' (fun x mem => ?_) fun y mem => ?_)
          · obtain ⟨y, inL', equal⟩ := into x (List.mem_cons_of_mem _ mem)
            rcases List.mem_cons.mp inL' with rfl | later
            · have := orders.lt_of_lt_of_le inA (rest x mem) inB (first x mem) equal.le
              omega
            · exact ⟨y, later, equal⟩
          · obtain ⟨x, inL, equal⟩ := back y (List.mem_cons_of_mem _ mem)
            rcases List.mem_cons.mp inL with rfl | later
            · have less := first' y mem
              have le := ((orders.zero_comm inA inB).mp heads).le
              have greater := orders.lt_of_le_of_lt inA inB (rest' y mem) heads.le less
              omega
            · exact ⟨x, later, equal⟩

theorem uniq_perm (orders : Orders (· ∈ l) cmp) (sorted : l.Pairwise fun a b => cmp a b ≤ 0)
    (sorted' : l'.Pairwise fun a b => cmp a b ≤ 0) (perm : l'.Perm l) :
    List.Forall₂ (fun a b => cmp a b = 0) (uniq cmp l) (uniq cmp l') := by
  have orders' : Orders (· ∈ l') cmp := orders.mono fun a => perm.mem_iff.mp
  have inL : ∀ a ∈ uniq cmp l, a ∈ l := fun a mem => (uniq_sublist l).subset mem
  have inL' : ∀ a ∈ uniq cmp l', a ∈ l := fun a mem => perm.mem_iff.mp ((uniq_sublist l').subset mem)
  refine forall₂_of_strict orders inL inL' (uniq_strict orders sorted) (uniq_strict orders' sorted') ?_ ?_
  · intro a mem
    exact exists_uniq orders' (perm.mem_iff.mpr (inL a mem))
  · intro b mem
    obtain ⟨a, kept, equal⟩ := exists_uniq orders (inL' b mem)
    exact ⟨a, kept, (orders.zero_comm (inL' b mem) (inL a kept)).mp equal⟩

end Uniq

def Qsort.byInsertion (cmp : α → α → Int) : Qsort cmp where
  run l := l.insertionSort fun a b => cmp a b ≤ 0
  spec l orders := by
    refine ⟨List.perm_insertionSort _ l, ?_⟩
    -- the order holds on the elements only, so the list is sorted as a list of elements of `l`
    have total : Std.Total fun a b : {a // a ∈ l} => cmp a.val b.val ≤ 0 :=
      ⟨fun a b => orders.total a.property b.property⟩
    have trans : IsTrans {a // a ∈ l} fun a b => cmp a.val b.val ≤ 0 :=
      ⟨fun a b c => orders.trans a.val b.val c.val a.property b.property c.property⟩
    have sorted := List.pairwise_insertionSort (fun a b : {a // a ∈ l} => cmp a.val b.val ≤ 0) l.attach
    have map := List.map_insertionSort (r := fun a b : {a // a ∈ l} => cmp a.val b.val ≤ 0)
      (s := fun a b => cmp a b ≤ 0) Subtype.val l.attach fun _ _ _ _ => Iff.rfl
    rw [List.attach_map_subtype_val] at map
    rw [← map, List.pairwise_map]
    exact sorted

end TorJet.Base
