import Mathlib.Data.Multiset.AddSub
import Mathlib.Tactic.ByContra
import TorJet.Base.Machine
import TorJet.Smartlist.Pqueue

/-!
# Runs of the priority queue

Sequences of `smartlist_pqueue_add`, `smartlist_pqueue_pop` and `smartlist_pqueue_remove`. The element that takes the
place of a removed one is only moved down, so the heap order holds after a removal where it may stand below the parent
of that place.
-/

namespace TorJet.Smartlist
open Base

structure Queue (α β : Type) extends HeapOrder α where
  getIdx : α → Int
  item : α → β
  getIdx_setIdx : ∀ i x, getIdx (setIdx i x) = i
  item_setIdx : ∀ i x, item (setIdx i x) = item x

inductive Operation (α : Type)
  | add (x : α)
  | pop
  | remove (x : α)

namespace Queue
variable {α β : Type} [DecidableEq α] [DecidableEq β] (q : Queue α β)

abbrev State (α β : Type) := List α × Multiset β

def step (s : State α β) : Operation α → Option (State α β)
  | .add x => some (q.pqueueAdd s.1 x, q.item x ::ₘ s.2)
  | .pop => (q.pqueuePop s.1).map fun (top, rest) => (rest, s.2.erase (q.item top))
  | .remove x =>
      if 0 ≤ q.getIdx x ∧ s.1[(q.getIdx x).toNat]? = some x then
        some (q.pqueueRemove s.1 (q.getIdx x).toNat, s.2.erase (q.item x))
      else none

def machine : Machine (State α β) (Operation α) := ⟨q.step⟩

def empty : State α β := ([], 0)

/-- `smartlist_pqueue_assert_ok`, the contents, and what `smartlist_pqueue_pop` would return. -/
structure Good (s : State α β) : Prop where
  ordered : q.Ordered s.1
  indexed : HeapOrder.Indexed q.getIdx s.1
  contents : ((s.1.map q.item : List β) : Multiset β) = s.2
  least : ∀ top rest, q.pqueuePop s.1 = some (top, rest) → ∀ x ∈ s.1, q.compare top x ≤ 0
  here : ∀ x ∈ s.1, (q.step s (.remove x)).isSome

def Fits (s : State α β) : Operation α → Prop
  | .remove x =>
      0 < q.getIdx x → ∀ p ∈ s.1[parent (q.getIdx x).toNat]?, ∀ last ∈ s.1.getLast?, q.compare p last ≤ 0
  | _ => True

end Queue

/-! ## Removing -/

namespace HeapOrder
variable {α : Type*} {o : HeapOrder α} {sl : List α} {i j idx : Nat} {last : α}

theorem below_moved (fits : o.Below sl i j) (left : i ≠ idx) (right : j ≠ idx) :
    o.Below (o.updateIdx (sl.dropLast.set idx last) idx) i j := by
  rw [below_updateIdx]
  intro x y hx hy
  rw [List.getElem?_set_ne (Ne.symm left), List.getElem?_dropLast] at hx
  rw [List.getElem?_set_ne (Ne.symm right), List.getElem?_dropLast] at hy
  split at hx
  · split at hy
    · exact fits x y hx hy
    · cases hy
  · cases hx

theorem moved_downOrdered (ordered : o.Ordered sl) (inside : idx < sl.length)
    (fits : 0 < idx → ∀ p ∈ sl[parent idx]?, o.compare p last ≤ 0) :
    DownOrdered o (o.updateIdx (sl.dropLast.set idx last) idx) idx := by
  constructor
  · intro i pos other
    by_cases here : i = idx
    · subst here
      rw [below_updateIdx]
      intro x y hx hy
      have up := parent_lt pos
      rw [List.getElem?_set_ne (Nat.ne_of_gt up), List.getElem?_dropLast] at hx
      rw [List.getElem?_set_self'] at hy
      obtain ⟨_, -, rfl⟩ := Option.map_eq_some_iff.mp hy
      split at hx
      · exact fits pos x hx
      · cases hx
    · exact below_moved (ordered i pos) other here
  · intro pos c posC child
    have up := parent_lt pos
    have down := parent_lt posC
    exact below_moved ((ordered idx pos).trans (child ▸ ordered c posC) inside) (Nat.ne_of_lt up) (by omega)

theorem heapify_stays {fuel : Nat} (less : ∀ c, 0 < c → parent c = idx →
    ∀ x ∈ sl[idx]?, ∀ y ∈ sl[c]?, o.compare x y < 0) : o.heapify fuel sl idx = sl := by
  cases fuel with
  | zero => rfl
  | succ fuel =>
      rw [heapify]
      split
      · rename_i x l atIdx atLeft
        have leftLess := less (leftChild idx) (by unfold leftChild; omega) (parent_leftChild idx) x atIdx l atLeft
        have stays : o.bestIdx sl idx x l = idx := by
          rw [bestIdx, if_pos leftLess, if_pos leftLess]
          split
          · rename_i r atRight
            have rightLess := less (leftChild idx + 1) (by omega) (parent_leftChild_succ idx) x atIdx r atRight
            have notLess : ¬ o.compare r x < 0 := fun back => by
              have flipped := o.compare_flip.mp back
              omega
            exact if_neg notLess
          · rfl
        exact if_pos stays
      · rfl

theorem pqueueRemove_ordered_iff (ordered : o.Ordered sl) (inside : idx < sl.length) :
    o.Ordered (o.pqueueRemove sl idx) ↔
      (0 < idx → ∀ p ∈ sl[parent idx]?, ∀ last ∈ sl.getLast?, o.compare p last ≤ 0) := by
  cases tail : sl.getLast? with
  | none =>
      rw [List.getLast?_eq_none_iff.mp tail] at inside
      exact absurd inside (Nat.not_lt_zero idx)
  | some last =>
      rw [pqueueRemove, tail]
      dsimp only
      have atLast : sl[sl.length - 1]? = some last := by rw [← List.getLast?_eq_getElem?, tail]
      split
      · rename_i isLast
        refine iff_of_true (fun i pos x y hx hy => ?_) fun pos p hp z hz => ?_
        · rw [List.getElem?_dropLast] at hx hy
          split at hx
          · split at hy
            · exact ordered i pos x y hx hy
            · cases hy
          · cases hx
        · obtain rfl := Option.some.inj hz
          exact ordered idx pos p last hp (isLast ▸ atLast)
      · rename_i inner
        have size : (o.updateIdx (sl.dropLast.set idx last) idx).length = sl.length - 1 := by simp
        constructor
        · intro result pos p hp z hz
          obtain rfl := Option.some.inj hz
          by_contra less
          have less : o.compare last p < 0 := by
            rw [o.compare_flip]
            omega
          have up := parent_lt pos
          -- the children of the place are not less than its parent, so that the last element stays above them
          have stays : o.heapify sl.length (o.updateIdx (sl.dropLast.set idx last) idx) idx =
              o.updateIdx (sl.dropLast.set idx last) idx := by
            refine heapify_stays fun c posC child x hx y hy => ?_
            have down := parent_lt posC
            rw [Option.mem_def, getElem?_updateIdx, if_pos rfl, List.getElem?_set_self (by simp; omega)] at hx
            obtain ⟨x', hx', rfl⟩ := Option.map_eq_some_iff.mp hx
            obtain rfl := Option.some.inj hx'
            have other : idx ≠ c := by omega
            rw [Option.mem_def, getElem?_updateIdx, if_neg other, List.getElem?_set_ne other,
              List.getElem?_dropLast] at hy
            split at hy
            · have above := ((ordered idx pos).trans (child ▸ ordered c posC) inside) p y hp hy
              rw [o.compare_setIdx_left]
              by_contra notLess
              have back := compare_le_of_not_lt notLess
              have low := o.compare_trans above back
              have flipped := o.compare_flip.mp less
              omega
            · cases hy
          rw [stays] at result
          have below := result idx pos
          rw [below_updateIdx] at below
          have shown := below p last (by
            rw [List.getElem?_set_ne (Nat.ne_of_gt up), List.getElem?_dropLast, if_pos (by omega)]
            exact hp) (by
            rw [List.getElem?_set_self (by simp; omega)])
          have flipped := o.compare_flip.mp less
          omega
        · intro fits
          exact heapify_ordered (moved_downOrdered ordered inside fun pos p hp => fits pos p hp last rfl) (by omega)

end HeapOrder

namespace Queue
variable {α β : Type} {q : Queue α β} {s t : State α β} {op : Operation α}

theorem pop_least (ordered : q.Ordered s.1) {top : α} {rest : List α} (popped : q.pqueuePop s.1 = some (top, rest))
    {x : α} (mem : x ∈ s.1) : q.compare top x ≤ 0 := by
  cases head : s.1[0]? with
  | none =>
      have empty := List.length_eq_zero_iff.mp (Nat.le_zero.mp (List.getElem?_eq_none_iff.mp head))
      rw [empty] at mem
      cases mem
  | some first =>
      obtain ⟨rest', eq⟩ := HeapOrder.pqueuePop_top (o := q.toHeapOrder) head
      rw [eq] at popped
      obtain ⟨rfl, -⟩ := Prod.mk.inj (Option.some.inj popped)
      rw [q.compare_setIdx_left]
      exact HeapOrder.top_least ordered head mem

variable [DecidableEq α] [DecidableEq β]

theorem remove_isSome (indexed : HeapOrder.Indexed q.getIdx s.1) {x : α} (mem : x ∈ s.1) :
    (q.step s (.remove x)).isSome := by
  obtain ⟨i, found⟩ := List.mem_iff_getElem?.mp mem
  have stored := indexed i x found
  rw [step, if_pos ⟨by omega, by rw [stored]; exact found⟩]
  rfl

theorem Good.of_ordered (ordered : q.Ordered s.1) (indexed : HeapOrder.Indexed q.getIdx s.1)
    (contents : ((s.1.map q.item : List β) : Multiset β) = s.2) : q.Good s where
  ordered := ordered
  indexed := indexed
  contents := contents
  least _ _ popped _ mem := pop_least ordered popped mem
  here _ mem := remove_isSome indexed mem

omit [DecidableEq α] in
theorem contents_erase {before rest : List α} {x : α} {m : Multiset β}
    (perm : (q.item x :: rest.map q.item).Perm (before.map q.item))
    (contents : ((before.map q.item : List β) : Multiset β) = m) :
    ((rest.map q.item : List β) : Multiset β) = m.erase (q.item x) := by
  rw [← contents, ← Multiset.coe_eq_coe.mpr perm, ← Multiset.cons_coe, Multiset.erase_cons_head]

theorem good_iff_fits (good : q.Good s) (action : q.step s op = some t) : q.Good t ↔ q.Fits s op := by
  cases op with
  | add x =>
      obtain rfl := Option.some.inj action
      refine iff_of_true (.of_ordered (HeapOrder.pqueueAdd_ordered good.ordered x)
        (HeapOrder.pqueueAdd_indexed q.getIdx_setIdx good.indexed x) ?_) trivial
      rw [Multiset.coe_eq_coe.mpr (HeapOrder.pqueueAdd_perm q.item_setIdx s.1 x), ← Multiset.cons_coe, good.contents]
  | pop =>
      obtain ⟨⟨top, rest⟩, popped, rfl⟩ := Option.map_eq_some_iff.mp action
      refine iff_of_true (.of_ordered (HeapOrder.pqueuePop_ordered good.ordered popped)
        (HeapOrder.pqueuePop_indexed q.getIdx_setIdx good.indexed popped) ?_) trivial
      exact contents_erase (HeapOrder.pqueuePop_perm q.item_setIdx popped) good.contents
  | remove x =>
      rw [step] at action
      split at action
      · rename_i placed
        obtain ⟨known, found⟩ := placed
        obtain rfl := Option.some.inj action
        have inside := (List.getElem?_eq_some_iff.mp found).1
        have exact_ := HeapOrder.pqueueRemove_ordered_iff good.ordered inside
        have positive : 0 < q.getIdx x ↔ 0 < (q.getIdx x).toNat := by omega
        rw [Fits, positive, ← exact_]
        refine ⟨fun after => after.ordered, fun ordered => .of_ordered ordered
          (HeapOrder.pqueueRemove_indexed q.getIdx_setIdx good.indexed _) ?_⟩
        exact contents_erase (HeapOrder.pqueueRemove_perm q.item_setIdx found) good.contents
      · cases action

theorem good_empty : q.Good empty :=
  .of_ordered HeapOrder.ordered_nil (fun i x found => by cases found) rfl

/-- All states of a run from the empty list are good if what each removal moves fits, and only then. -/
theorem pqueue_good_iff (q : Queue α β) (ops : List (Operation α)) :
    q.machine.Throughout q.Good empty ops ↔ q.machine.Stepwise q.Fits empty ops := by
  have kept (s : State α β) (op : Operation α) (t : State α β) (good : q.Good s) (action : q.machine.step s op = some t) :
      q.Good t ↔ q.Fits s op := good_iff_fits good action
  exact Machine.throughout_iff_stepwise kept good_empty ops

/-! ## The queue that a removal spoils -/

def numbers : Queue (Int × Int) Int where
  compare x y := x.1 - y.1
  setIdx i x := (x.1, i)
  compare_trans first second := by omega
  compare_flip := by omega
  compare_setIdx_left := rfl
  compare_setIdx_right := rfl
  getIdx := Prod.snd
  item := Prod.fst
  getIdx_setIdx _ _ := rfl
  item_setIdx _ _ := rfl

def spoiled : List (Operation (Int × Int)) :=
  [.add (1, -1), .add (10, -1), .add (2, -1), .add (11, -1), .add (12, -1), .add (3, -1), .remove (11, 3)]

theorem spoiled_not_good : ¬ ∀ ops, numbers.machine.Throughout numbers.Good empty ops := by
  intro all
  have whole := all spoiled
  -- the list behind the removal
  have last := ((((((whole.2 _ rfl).2 _ rfl).2 _ rfl).2 _ rfl).2 _ rfl).2 _ rfl).2 _ rfl
  have below := last.ordered 3 (by decide) (10, 1) (3, 3) rfl rfl
  revert below
  decide

end Queue

/-! ## Draining a queue -/

namespace Queue
variable {α β : Type} {q : Queue α β}

/-- `smartlist_pqueue_pop` until the list is empty -/
def drain (q : Queue α β) : Nat → List α → List α
  | 0, _ => []
  | fuel + 1, sl =>
      match q.pqueuePop sl with
      | none => []
      | some (top, rest) => top :: drain q fuel rest

theorem drain_perm {γ : Type} {f : α → γ} (blind : ∀ i x, f (q.setIdx i x) = f x) {fuel : Nat} {sl : List α}
    (enough : sl.length ≤ fuel) : ((drain q fuel sl).map f).Perm (sl.map f) := by
  induction fuel generalizing sl with
  | zero =>
      rw [List.length_eq_zero_iff.mp (Nat.le_zero.mp enough)]
      exact .nil
  | succ fuel ih =>
      rw [drain]
      cases popped : q.pqueuePop sl with
      | none =>
          cases sl with
          | nil => exact .nil
          | cons first tail =>
              obtain ⟨rest, eq⟩ := HeapOrder.pqueuePop_top (o := q.toHeapOrder)
                (show (first :: tail)[0]? = some first from rfl)
              rw [eq] at popped
              cases popped
      | some pair =>
          have perm := HeapOrder.pqueuePop_perm (o := q.toHeapOrder) blind popped
          have size := perm.length_eq
          rw [List.length_cons, List.length_map, List.length_map] at size
          have rest : ((drain q fuel pair.2).map f).Perm (pair.2.map f) := ih (by omega)
          exact (rest.cons (f pair.1)).trans perm

theorem drain_sorted {fuel : Nat} {sl : List α} (ordered : q.Ordered sl) (enough : sl.length ≤ fuel) :
    (drain q fuel sl).Pairwise fun x y => q.compare x y ≤ 0 := by
  induction fuel generalizing sl with
  | zero => exact .nil
  | succ fuel ih =>
      rw [drain]
      cases popped : q.pqueuePop sl with
      | none => exact .nil
      | some pair =>
          -- positions do not matter to the comparison with the first element
          have blind (i : Int) (x : α) : q.compare pair.1 (q.setIdx i x) = q.compare pair.1 x := q.compare_setIdx_right
          have perm := HeapOrder.pqueuePop_perm (o := q.toHeapOrder) blind popped
          have size := perm.length_eq
          rw [List.length_cons, List.length_map, List.length_map] at size
          have small : pair.2.length ≤ fuel := by omega
          refine .cons (fun y mem => ?_) (ih (HeapOrder.pqueuePop_ordered ordered popped) small)
          have inRest : q.compare pair.1 y ∈ pair.2.map (q.compare pair.1) :=
            (drain_perm blind small).mem_iff.mp (List.mem_map_of_mem mem)
          obtain ⟨z, inList, same⟩ := List.mem_map.mp (perm.mem_iff.mp (List.mem_cons_of_mem _ inRest))
          rw [← same]
          exact pop_least (s := (sl, (0 : Multiset β))) ordered popped inList

/-- What is added to a queue in any order leaves it in the order of the comparison, each once. -/
theorem pqueue_sorts (q : Queue α β) (items : List α) :
    (drain q items.length (items.foldl q.pqueueAdd [])).Pairwise (fun x y => q.compare x y ≤ 0) ∧
      ((drain q items.length (items.foldl q.pqueueAdd [])).map q.item).Perm (items.map q.item) := by
  have added (sl : List α) (ordered : q.Ordered sl) : q.Ordered (items.foldl q.pqueueAdd sl) ∧
      ((items.foldl q.pqueueAdd sl).map q.item).Perm ((sl ++ items).map q.item) := by
    induction items generalizing sl with
    | nil => exact ⟨ordered, by rw [List.append_nil]; exact .refl _⟩
    | cons item items ih =>
        obtain ⟨still, perm⟩ := ih _ (HeapOrder.pqueueAdd_ordered ordered item)
        refine ⟨still, perm.trans ?_⟩
        rw [List.map_append, List.map_append, List.map_cons]
        exact ((HeapOrder.pqueueAdd_perm q.item_setIdx sl item).append_right _).trans List.perm_middle.symm
  obtain ⟨ordered, perm⟩ := added [] HeapOrder.ordered_nil
  have size := perm.length_eq
  rw [List.length_map, List.length_map, List.nil_append] at size
  exact ⟨drain_sorted ordered (Nat.le_of_eq size), (drain_perm q.item_setIdx (Nat.le_of_eq size)).trans perm⟩

end Queue
end TorJet.Smartlist
