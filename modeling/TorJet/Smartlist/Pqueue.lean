import Mathlib.Data.List.Perm.Basic
import Mathlib.Logic.Equiv.Basic
import Mathlib.Algebra.Order.Monoid.Unbundled.Basic

/-!
# The smartlist priority queue

A binary heap in a list, with each element's position stored in the element. The comparator is any
total preorder in the convention of `qsort`, and it does not look at the stored position.
-/

namespace TorJet.Smartlist

/-- `compare` together with the integer field that `idx_field_offset` points at. -/
structure HeapOrder (α : Type*) where
  compare : α → α → Int
  setIdx : Int → α → α
  compare_trans : ∀ {x y z}, compare x y ≤ 0 → compare y z ≤ 0 → compare x z ≤ 0
  compare_flip : ∀ {x y}, compare x y < 0 ↔ 0 < compare y x
  compare_setIdx_left : ∀ {i x y}, compare (setIdx i x) y = compare x y
  compare_setIdx_right : ∀ {i x y}, compare x (setIdx i y) = compare x y

def parent (i : Nat) : Nat := (i - 1) / 2

def leftChild (i : Nat) : Nat := 2 * i + 1

theorem parent_lt {i : Nat} (pos : 0 < i) : parent i < i := by
  unfold parent
  omega

namespace HeapOrder
variable {α : Type*} (o : HeapOrder α)

def updateIdx (sl : List α) (i : Nat) : List α := sl.modify i (o.setIdx i)

def swapIdx (sl : List α) (i j : Nat) : List α :=
  match sl[i]?, sl[j]? with
  | some x, some y => o.updateIdx (o.updateIdx ((sl.set i y).set j x) i) j
  | _, _ => sl

/-- The loop of `smartlist_pqueue_add`. The index at least halves, so it is also enough fuel. -/
def siftUp : Nat → List α → Nat → List α
  | 0, sl, _ => sl
  | fuel + 1, sl, idx =>
      if idx = 0 then sl
      else match sl[idx]?, sl[parent idx]? with
        | some x, some p =>
            if o.compare x p < 0 then siftUp fuel (o.swapIdx sl idx (parent idx)) (parent idx)
            else sl
        | _, _ => sl

/-- The position `smartlist_heapify` moves the element at `idx` to. -/
def bestIdx (sl : List α) (idx : Nat) (x l : α) : Nat :=
  let best := if o.compare x l < 0 then idx else leftChild idx
  let y := if o.compare x l < 0 then x else l
  match sl[leftChild idx + 1]? with
  | some r => if o.compare r y < 0 then leftChild idx + 1 else best
  | none => best

-- The test IDX_MAY_HAVE_CHILDREN is left out: it only guards `2 * idx + 1` against exceeding an
-- int, which the bound on the list's length excludes.
def heapify : Nat → List α → Nat → List α
  | 0, sl, _ => sl
  | fuel + 1, sl, idx =>
      match sl[idx]?, sl[leftChild idx]? with
      | some x, some l =>
          let best := o.bestIdx sl idx x l
          if best = idx then sl else heapify fuel (o.swapIdx sl idx best) best
      | _, _ => sl

def pqueueAdd (sl : List α) (item : α) : List α :=
  o.siftUp sl.length (o.updateIdx (sl ++ [item]) sl.length) sl.length

def pqueuePop (sl : List α) : Option (α × List α) :=
  match sl with
  | [] => none
  | top :: rest =>
      let popped := o.setIdx (-1) top
      match rest.getLast? with
      | none => some (popped, [])
      | some last => some (popped, o.heapify rest.length (o.updateIdx ((top :: rest.dropLast).set 0 last) 0) 0)

/-- `smartlist_pqueue_remove` of the item at a position. -/
def pqueueRemove (sl : List α) (idx : Nat) : List α :=
  match sl.getLast? with
  | none => sl
  | some last =>
      if idx = sl.length - 1 then sl.dropLast
      else o.heapify sl.length (o.updateIdx (sl.dropLast.set idx last) idx) idx

/-! ## Contents -/

section Contents
variable {o}
variable {β : Type*} {f : α → β} (blind : ∀ i x, f (o.setIdx i x) = f x)
include blind

theorem updateIdx_map (sl : List α) (i : Nat) : (o.updateIdx sl i).map f = sl.map f := by
  refine List.ext_getElem? fun k => ?_
  simp only [updateIdx, List.getElem?_map, List.getElem?_modify]
  split <;> cases sl[k]? <;> simp [blind]

theorem swapIdx_perm (sl : List α) (i j : Nat) : ((o.swapIdx sl i j).map f).Perm (sl.map f) := by
  unfold swapIdx
  cases hi : sl[i]? with
  | none => simp
  | some x =>
      cases hj : sl[j]? with
      | none => simp
      | some y =>
          obtain ⟨ltI, rfl⟩ := List.getElem?_eq_some_iff.mp hi
          obtain ⟨ltJ, rfl⟩ := List.getElem?_eq_some_iff.mp hj
          simp only [updateIdx_map blind]
          exact (List.set_set_perm ltI ltJ).map f

theorem siftUp_perm (fuel : Nat) (sl : List α) (idx : Nat) :
    ((o.siftUp fuel sl idx).map f).Perm (sl.map f) := by
  induction fuel generalizing sl idx with
  | zero => exact .refl _
  | succ fuel ih =>
      simp only [siftUp]
      split
      · exact .refl _
      · split
        · split
          · exact (ih _ _).trans (swapIdx_perm blind _ _ _)
          · exact .refl _
        · exact .refl _

theorem heapify_perm (fuel : Nat) (sl : List α) (idx : Nat) :
    ((o.heapify fuel sl idx).map f).Perm (sl.map f) := by
  induction fuel generalizing sl idx with
  | zero => exact .refl _
  | succ fuel ih =>
      simp only [heapify]
      split
      · split
        · exact .refl _
        · exact (ih _ _).trans (swapIdx_perm blind _ _ _)
      · exact .refl _

theorem pqueueAdd_perm (sl : List α) (item : α) :
    ((o.pqueueAdd sl item).map f).Perm (f item :: sl.map f) := by
  refine (siftUp_perm blind _ _ _).trans ?_
  rw [updateIdx_map blind, List.map_append]
  exact List.perm_append_comm

theorem pqueuePop_perm {sl rest : List α} {item : α} (popped : o.pqueuePop sl = some (item, rest)) :
    (f item :: rest.map f).Perm (sl.map f) := by
  cases sl with
  | nil => cases popped
  | cons top tail =>
      simp only [pqueuePop] at popped
      cases last : tail.getLast? with
      | none =>
          simp only [last, Option.some.injEq, Prod.mk.injEq] at popped
          obtain ⟨rfl, rfl⟩ := popped
          simp [List.getLast?_eq_none_iff.mp last, blind]
      | some x =>
          simp only [last, Option.some.injEq, Prod.mk.injEq] at popped
          obtain ⟨rfl, rfl⟩ := popped
          have whole : tail = tail.dropLast ++ [x] :=
            (List.dropLast_append_getLast? x last).symm
          rw [blind, List.map_cons, List.perm_cons]
          refine (heapify_perm blind _ _ _).trans ?_
          rw [updateIdx_map blind]
          conv_rhs => rw [whole]
          simpa using (List.perm_append_singleton (f x) (tail.dropLast.map f)).symm

theorem pqueueRemove_perm {sl : List α} {idx : Nat} {item : α} (here : sl[idx]? = some item) :
    (f item :: (o.pqueueRemove sl idx).map f).Perm (sl.map f) := by
  obtain ⟨range, rfl⟩ := List.getElem?_eq_some_iff.mp here
  unfold pqueueRemove
  cases last : sl.getLast? with
  | none =>
      rw [List.getLast?_eq_none_iff.mp last] at range
      exact absurd range (Nat.not_lt_zero idx)
  | some x =>
      have whole : sl.dropLast ++ [x] = sl := List.dropLast_append_getLast? x last
      dsimp only
      split
      · rename_i atEnd
        have isLast : sl[idx] = x := by
          have found := List.getLast?_eq_getElem? (l := sl)
          rw [last, ← atEnd, List.getElem?_eq_getElem range] at found
          exact (Option.some.inj found).symm
        rw [isLast]
        conv_rhs => rw [← whole, List.map_append]
        exact (List.perm_append_singleton (f x) (sl.dropLast.map f)).symm
      · rename_i inner
        have short : idx < sl.dropLast.length := by
          rw [List.length_dropLast]
          omega
        have same : sl.dropLast[idx] = sl[idx] := List.getElem_dropLast short
        refine ((heapify_perm blind _ _ _).cons (f sl[idx])).trans ?_
        rw [updateIdx_map blind]
        -- put back, the removed item takes the place of the moved one
        have moved : (sl[idx] :: sl.dropLast.set idx x).Perm (x :: sl.dropLast) := by
          rw [← same]
          exact (List.set_perm_cons_eraseIdx short x |>.cons _).trans
            ((List.Perm.swap _ _ _).trans ((List.getElem_cons_eraseIdx_perm short).cons x))
        refine (moved.map f).trans ?_
        conv_rhs => rw [← whole]
        simpa using (List.perm_append_singleton (f x) (sl.dropLast.map f)).symm

end Contents

/-! ## Heap order -/

section Order

/-- The element at `i` may stand above the one at `j`. -/
def Below (sl : List α) (i j : Nat) : Prop :=
  ∀ x y, sl[i]? = some x → sl[j]? = some y → o.compare x y ≤ 0

def Ordered (sl : List α) : Prop := ∀ i, 0 < i → o.Below sl (parent i) i

variable {o} {sl : List α} {i j k : Nat}

theorem ordered_nil : o.Ordered [] := fun _ _ _ _ first => by cases first

theorem compare_le_of_not_lt {x y : α} (h : ¬ o.compare x y < 0) : o.compare y x ≤ 0 := by
  rw [o.compare_flip] at h
  omega

theorem compare_refl (x : α) : o.compare x x ≤ 0 :=
  compare_le_of_not_lt fun h => by
    have flipped := o.compare_flip.mp h
    omega

theorem Below.trans (left : o.Below sl i j) (right : o.Below sl j k) (range : j < sl.length) :
    o.Below sl i k := by
  intro x z hx hz
  exact o.compare_trans (left x _ hx (List.getElem?_eq_getElem range))
    (right _ z (List.getElem?_eq_getElem range) hz)

theorem Below.refl (sl : List α) (i : Nat) : o.Below sl i i := by
  intro x y hx hy
  obtain rfl : x = y := Option.some.inj (hx.symm.trans hy)
  exact compare_refl x

theorem below_iff (rangeI : i < sl.length) (rangeJ : j < sl.length) :
    o.Below sl i j ↔ o.compare sl[i] sl[j] ≤ 0 := by
  simp [Below, List.getElem?_eq_getElem rangeI, List.getElem?_eq_getElem rangeJ]

theorem getElem?_updateIdx (sl : List α) (i k : Nat) :
    (o.updateIdx sl i)[k]? = if i = k then (sl[k]?).map (o.setIdx i) else sl[k]? := by
  simp only [updateIdx, List.getElem?_modify]
  split <;> cases sl[k]? <;> rfl

theorem below_updateIdx : o.Below (o.updateIdx sl k) i j ↔ o.Below sl i j := by
  simp only [Below, getElem?_updateIdx]
  constructor
  · intro h x y hx hy
    have := h (if k = i then o.setIdx k x else x) (if k = j then o.setIdx k y else y)
      (by split <;> simp [hx]) (by split <;> simp [hy])
    split at this <;> split at this <;>
      simpa only [o.compare_setIdx_left, o.compare_setIdx_right] using this
  · intro h x y hx hy
    have left : ∃ x', sl[i]? = some x' ∧ ∀ z, o.compare x z = o.compare x' z := by
      split at hx
      · obtain ⟨x', h', rfl⟩ := Option.map_eq_some_iff.mp hx
        exact ⟨x', h', fun z => o.compare_setIdx_left⟩
      · exact ⟨x, hx, fun _ => rfl⟩
    have right : ∃ y', sl[j]? = some y' ∧ ∀ z, o.compare z y = o.compare z y' := by
      split at hy
      · obtain ⟨y', h', rfl⟩ := Option.map_eq_some_iff.mp hy
        exact ⟨y', h', fun z => o.compare_setIdx_right⟩
      · exact ⟨y, hy, fun _ => rfl⟩
    obtain ⟨x', hx', eqX⟩ := left
    obtain ⟨y', hy', eqY⟩ := right
    rw [eqX, eqY]
    exact h x' y' hx' hy'

@[simp] theorem length_updateIdx (sl : List α) (k : Nat) :
    (o.updateIdx sl k).length = sl.length := by simp [updateIdx]

@[simp] theorem length_swapIdx (sl : List α) (i j : Nat) :
    (o.swapIdx sl i j).length = sl.length := by
  unfold swapIdx
  split <;> simp

theorem below_swapIdx {a b : Nat} (ltA : a < sl.length) (ltB : b < sl.length) :
    o.Below (o.swapIdx sl a b) i j ↔ o.Below sl (Equiv.swap a b i) (Equiv.swap a b j) := by
  have entry (k : Nat) : ((sl.set a sl[b]).set b sl[a])[k]? = sl[Equiv.swap a b k]? := by
    simp only [List.getElem?_set, List.length_set, Equiv.swap_apply_def]
    by_cases kb : b = k
    · subst kb
      by_cases ka : b = a
      · subst ka; simp [ltB]
      · simp [ltB, ka, ltA]
    · by_cases ka : a = k
      · subst ka; simp [kb, ltA, ltB]
      · simp [kb, ka, Ne.symm kb, Ne.symm ka]
  unfold swapIdx
  simp only [List.getElem?_eq_getElem ltA, List.getElem?_eq_getElem ltB, below_updateIdx]
  simp only [Below, entry]

theorem Below.of_length_le (short : sl.length ≤ j) : o.Below sl i j := by
  intro x y _ hy
  simp [List.getElem?_eq_none short] at hy

/-- Ordered but for the pair above `hole`. -/
structure UpOrdered (o : HeapOrder α) (sl : List α) (hole : Nat) : Prop where
  elsewhere : ∀ i, 0 < i → i ≠ hole → o.Below sl (parent i) i
  bridge : 0 < hole → ∀ c, 0 < c → parent c = hole → o.Below sl (parent hole) c

/-- Ordered but for the pairs below `hole`. -/
structure DownOrdered (o : HeapOrder α) (sl : List α) (hole : Nat) : Prop where
  elsewhere : ∀ i, 0 < i → parent i ≠ hole → o.Below sl (parent i) i
  bridge : 0 < hole → ∀ c, 0 < c → parent c = hole → o.Below sl (parent hole) c

theorem UpOrdered.swap {hole : Nat} (h : UpOrdered o sl hole) (pos : 0 < hole)
    (range : hole < sl.length) (better : o.Below sl hole (parent hole)) :
    UpOrdered o (o.swapIdx sl hole (parent hole)) (parent hole) := by
  have up := parent_lt pos
  have rangeUp : parent hole < sl.length := by omega
  constructor
  · intro i posI ne
    rw [below_swapIdx range rangeUp]
    by_cases here : i = hole
    · subst here
      rw [Equiv.swap_apply_left, Equiv.swap_apply_right]
      exact better
    · rw [Equiv.swap_apply_of_ne_of_ne here ne]
      by_cases child : parent i = hole
      · rw [child, Equiv.swap_apply_left]
        exact h.bridge pos i posI child
      · by_cases sibling : parent i = parent hole
        · rw [sibling, Equiv.swap_apply_right]
          exact better.trans (sibling ▸ h.elsewhere i posI here) rangeUp
        · rw [Equiv.swap_apply_of_ne_of_ne child sibling]
          exact h.elsewhere i posI here
  · intro posUp c posC sibling
    have upUp := parent_lt posUp
    have top := h.elsewhere (parent hole) posUp (by omega)
    rw [below_swapIdx range rangeUp, Equiv.swap_apply_of_ne_of_ne (by omega) (by omega)]
    by_cases here : c = hole
    · rw [here, Equiv.swap_apply_left]
      exact top
    · have below := parent_lt posC
      rw [Equiv.swap_apply_of_ne_of_ne here (by omega)]
      exact top.trans (sibling ▸ h.elsewhere c posC here) rangeUp

theorem UpOrdered.finish {hole : Nat} (h : UpOrdered o sl hole)
    (stop : 0 < hole → o.Below sl (parent hole) hole) : o.Ordered sl := by
  intro i posI
  by_cases here : i = hole
  · subst here
    exact stop posI
  · exact h.elsewhere i posI here

theorem siftUp_ordered {fuel hole : Nat} (h : UpOrdered o sl hole) (range : hole < sl.length)
    (enough : hole ≤ fuel) : o.Ordered (o.siftUp fuel sl hole) := by
  induction fuel generalizing sl hole with
  | zero => exact h.finish fun pos => by omega
  | succ fuel ih =>
      simp only [siftUp]
      split
      · rename_i zero
        exact h.finish fun pos => by omega
      · rename_i nonzero
        have pos : 0 < hole := by omega
        have up := parent_lt pos
        have rangeUp : parent hole < sl.length := by omega
        rw [List.getElem?_eq_getElem range, List.getElem?_eq_getElem rangeUp]
        dsimp only
        split
        · rename_i lt
          exact ih (h.swap pos range ((below_iff range rangeUp).mpr lt.le)) (by simpa using rangeUp)
            (by omega)
        · rename_i notLt
          exact h.finish fun _ => (below_iff rangeUp range).mpr (compare_le_of_not_lt notLt)

theorem child_cases {c p : Nat} (pos : 0 < c) (child : parent c = p) :
    c = leftChild p ∨ c = leftChild p + 1 := by
  unfold parent at child
  unfold leftChild
  omega

theorem parent_leftChild (p : Nat) : parent (leftChild p) = p := by
  unfold parent leftChild
  omega

theorem parent_leftChild_succ (p : Nat) : parent (leftChild p + 1) = p := by
  unfold parent leftChild
  omega

theorem bestIdx_left {idx : Nat} (range : idx < sl.length) (rangeL : leftChild idx < sl.length) :
    ∃ best, best = (if o.compare sl[idx] sl[leftChild idx] < 0 then idx else leftChild idx) ∧
      ∃ lt : best < sl.length,
        sl[best] = (if o.compare sl[idx] sl[leftChild idx] < 0 then sl[idx] else sl[leftChild idx]) ∧
        o.Below sl best idx ∧ o.Below sl best (leftChild idx) := by
  split
  · rename_i lt
    exact ⟨idx, rfl, range, rfl, .refl _ _, (below_iff range rangeL).mpr lt.le⟩
  · rename_i notLt
    exact ⟨leftChild idx, rfl, rangeL, rfl,
      (below_iff rangeL range).mpr (compare_le_of_not_lt notLt), .refl _ _⟩

theorem bestIdx_spec {idx : Nat} (range : idx < sl.length) (rangeL : leftChild idx < sl.length) :
    let best := o.bestIdx sl idx sl[idx] sl[leftChild idx]
    best < sl.length ∧ (best ≠ idx → 0 < best ∧ parent best = idx) ∧ o.Below sl best idx ∧
      ∀ c, 0 < c → parent c = idx → o.Below sl best c := by
  obtain ⟨small, smallEq, smallLt, value, belowIdx, belowLeft⟩ := bestIdx_left (o := o) range rangeL
  have childOf : small ≠ idx → 0 < small ∧ parent small = idx := by
    intro ne
    rw [smallEq] at ne ⊢
    split at ne
    · exact absurd rfl ne
    · rename_i notLt
      rw [if_neg notLt]
      exact ⟨by unfold leftChild; omega, parent_leftChild idx⟩
  simp only [bestIdx, ← smallEq, ← value]
  cases right : sl[leftChild idx + 1]? with
  | none =>
      refine ⟨smallLt, childOf, belowIdx, fun c pos child => ?_⟩
      rcases child_cases pos child with rfl | rfl
      · exact belowLeft
      · exact .of_length_le (List.getElem?_eq_none_iff.mp right)
  | some r =>
      obtain ⟨rangeR, rfl⟩ := List.getElem?_eq_some_iff.mp right
      dsimp only
      split
      · rename_i lt
        have step : o.Below sl (leftChild idx + 1) small := (below_iff rangeR smallLt).mpr lt.le
        refine ⟨rangeR, fun _ => ⟨by omega, parent_leftChild_succ idx⟩,
          step.trans belowIdx smallLt, fun c pos child => ?_⟩
        rcases child_cases pos child with rfl | rfl
        · exact step.trans belowLeft smallLt
        · exact .refl _ _
      · rename_i notLt
        refine ⟨smallLt, childOf, belowIdx, fun c pos child => ?_⟩
        rcases child_cases pos child with rfl | rfl
        · exact belowLeft
        · exact (below_iff smallLt rangeR).mpr (compare_le_of_not_lt notLt)

theorem DownOrdered.swap {hole best : Nat} (h : DownOrdered o sl hole) (range : hole < sl.length)
    (rangeB : best < sl.length) (posB : 0 < best) (child : parent best = hole)
    (least : o.Below sl best hole) (leastChild : ∀ c, 0 < c → parent c = hole → o.Below sl best c) :
    DownOrdered o (o.swapIdx sl hole best) best := by
  have down := parent_lt posB
  constructor
  · intro i posI ne
    have up := parent_lt posI
    rw [below_swapIdx range rangeB]
    by_cases here : i = hole
    · subst here
      rw [Equiv.swap_apply_left, Equiv.swap_apply_of_ne_of_ne (by omega) ne]
      exact h.bridge posI best posB child
    · by_cases isBest : i = best
      · subst isBest
        rw [child, Equiv.swap_apply_left, Equiv.swap_apply_right]
        exact least
      · rw [Equiv.swap_apply_of_ne_of_ne here isBest]
        by_cases sibling : parent i = hole
        · rw [sibling, Equiv.swap_apply_left]
          exact leastChild i posI sibling
        · rw [Equiv.swap_apply_of_ne_of_ne sibling ne]
          exact h.elsewhere i posI sibling
  · intro _ c posC grandchild
    have up := parent_lt posC
    rw [below_swapIdx range rangeB, child, Equiv.swap_apply_left,
      Equiv.swap_apply_of_ne_of_ne (by omega) (by omega)]
    exact grandchild ▸ h.elsewhere c posC (by omega)

theorem DownOrdered.finish {hole : Nat} (h : DownOrdered o sl hole)
    (stop : ∀ c, 0 < c → parent c = hole → o.Below sl hole c) : o.Ordered sl := by
  intro i posI
  by_cases child : parent i = hole
  · rw [child]
    exact stop i posI child
  · exact h.elsewhere i posI child

theorem heapify_ordered {fuel hole : Nat} (h : DownOrdered o sl hole)
    (enough : sl.length ≤ fuel + hole) : o.Ordered (o.heapify fuel sl hole) := by
  induction fuel generalizing sl hole with
  | zero =>
      refine h.finish fun c posC child => .of_length_le ?_
      have := parent_lt posC
      omega
  | succ fuel ih =>
      simp only [heapify]
      by_cases rangeL : leftChild hole < sl.length
      · have range : hole < sl.length := by unfold leftChild at rangeL; omega
        rw [List.getElem?_eq_getElem range, List.getElem?_eq_getElem rangeL]
        obtain ⟨rangeB, isChild, least, leastChild⟩ := bestIdx_spec (o := o) range rangeL
        dsimp only
        generalize o.bestIdx sl hole sl[hole] sl[leftChild hole] = best at *
        split
        · rename_i same
          subst same
          exact h.finish leastChild
        · rename_i ne
          obtain ⟨posB, child⟩ := isChild ne
          have down := parent_lt posB
          exact ih (h.swap range rangeB posB child least leastChild) (by simp; omega)
      · rw [List.getElem?_eq_none (Nat.le_of_not_lt rangeL)]
        have leaf : o.Ordered sl := h.finish fun c posC child => .of_length_le (by
          rcases child_cases posC child with rfl | rfl <;> omega)
        split
        · simp_all
        · exact leaf

theorem pqueueAdd_ordered (h : o.Ordered sl) (item : α) : o.Ordered (o.pqueueAdd sl item) := by
  refine siftUp_ordered ⟨fun i pos ne => ?_, fun _ c pos child => ?_⟩ (by simp) le_rfl
  · rw [below_updateIdx]
    by_cases range : i < sl.length
    · have up := parent_lt pos
      intro x y hx hy
      rw [List.getElem?_append_left (by omega)] at hx hy
      exact h i pos x y hx hy
    · exact .of_length_le (by simp; omega)
  · have := parent_lt pos
    exact .of_length_le (by simp; omega)

theorem pqueuePop_ordered (h : o.Ordered sl) {item : α} {rest : List α}
    (popped : o.pqueuePop sl = some (item, rest)) : o.Ordered rest := by
  cases sl with
  | nil => cases popped
  | cons top tail =>
      simp only [pqueuePop] at popped
      cases last : tail.getLast? with
      | none =>
          simp only [last, Option.some.injEq, Prod.mk.injEq] at popped
          obtain ⟨_, rfl⟩ := popped
          exact fun i _ => .of_length_le (Nat.zero_le _)
      | some z =>
          simp only [last, Option.some.injEq, Prod.mk.injEq] at popped
          obtain ⟨_, rfl⟩ := popped
          have nonempty : 0 < tail.length := by
            rw [List.length_pos_iff]
            rintro rfl
            cases last
          refine heapify_ordered ⟨fun i pos ne => ?_, fun pos => absurd pos (lt_irrefl 0)⟩ (by
            rw [length_updateIdx, List.length_set, List.length_cons, List.length_dropLast]
            omega)
          have up := parent_lt pos
          rw [below_updateIdx]
          intro x y hx hy
          have kept (k : Nat) (posK : 0 < k) (w : α)
              (hw : ((top :: tail.dropLast).set 0 z)[k]? = some w) : (top :: tail)[k]? = some w := by
            rw [List.getElem?_set_ne (by omega)] at hw
            obtain ⟨k, rfl⟩ : ∃ m, k = m + 1 := ⟨k - 1, by omega⟩
            rw [List.getElem?_cons_succ] at hw ⊢
            rw [List.getElem?_dropLast] at hw
            split at hw
            · exact hw
            · cases hw
          exact h i pos x y (kept _ (by omega) x hx) (kept _ pos y hy)

theorem top_least (h : o.Ordered sl) {top : α} (head : sl[0]? = some top) {y : α} (mem : y ∈ sl) :
    o.compare top y ≤ 0 := by
  obtain ⟨k, hk⟩ := List.mem_iff_getElem?.mp mem
  have all (k : Nat) : o.Below sl 0 k := by
    induction k using Nat.strong_induction_on with
    | h k ih =>
        rcases Nat.eq_zero_or_pos k with rfl | pos
        · exact .refl _ _
        · by_cases range : k < sl.length
          · have up := parent_lt pos
            exact (ih (parent k) up).trans (h k pos) (by omega)
          · exact .of_length_le (by omega)
  exact all k top y head hk

theorem pqueuePop_top {top : α} (head : sl[0]? = some top) :
    ∃ rest, o.pqueuePop sl = some (o.setIdx (-1) top, rest) := by
  cases sl with
  | nil => cases head
  | cons x tail =>
      obtain rfl : x = top := Option.some.inj head
      simp only [pqueuePop]
      split <;> exact ⟨_, rfl⟩

end Order

/-! ## Stored positions -/

section Positions

def Indexed (getIdx : α → Int) (sl : List α) : Prop := ∀ (i : Nat) x, sl[i]? = some x → getIdx x = i

variable {o} {getIdx : α → Int} (stored : ∀ i x, getIdx (o.setIdx i x) = i) {sl : List α}
include stored

theorem updateIdx_indexed {k : Nat} (elsewhere : ∀ (i : Nat) x, i ≠ k → sl[i]? = some x → getIdx x = i) :
    Indexed getIdx (o.updateIdx sl k) := by
  intro i x found
  rw [getElem?_updateIdx] at found
  split at found
  · rename_i here
    obtain ⟨y, -, rfl⟩ := Option.map_eq_some_iff.mp found
    rw [stored, here]
  · rename_i other
    exact elsewhere i x (Ne.symm other) found

theorem swapIdx_indexed (indexed : Indexed getIdx sl) (i j : Nat) : Indexed getIdx (o.swapIdx sl i j) := by
  unfold swapIdx
  split
  · refine updateIdx_indexed stored fun k x notJ found => ?_
    rw [getElem?_updateIdx] at found
    split at found
    · rename_i here
      obtain ⟨y, -, rfl⟩ := Option.map_eq_some_iff.mp found
      rw [stored, here]
    · rename_i notI
      rw [List.getElem?_set_ne (Ne.symm notJ), List.getElem?_set_ne notI] at found
      exact indexed k x found
  · exact indexed

theorem siftUp_indexed (indexed : Indexed getIdx sl) (fuel idx : Nat) : Indexed getIdx (o.siftUp fuel sl idx) := by
  induction fuel generalizing sl idx with
  | zero => exact indexed
  | succ fuel ih =>
      simp only [siftUp]
      split
      · exact indexed
      · split
        · split
          · exact ih (swapIdx_indexed stored indexed _ _) _
          · exact indexed
        · exact indexed

theorem heapify_indexed (indexed : Indexed getIdx sl) (fuel idx : Nat) : Indexed getIdx (o.heapify fuel sl idx) := by
  induction fuel generalizing sl idx with
  | zero => exact indexed
  | succ fuel ih =>
      simp only [heapify]
      split
      · split
        · exact indexed
        · exact ih (swapIdx_indexed stored indexed _ _) _
      · exact indexed

theorem pqueueAdd_indexed (indexed : Indexed getIdx sl) (item : α) : Indexed getIdx (o.pqueueAdd sl item) := by
  refine siftUp_indexed stored (updateIdx_indexed stored fun i x other found => ?_) _ _
  rw [List.getElem?_append] at found
  split at found
  · exact indexed i x found
  · rename_i range
    have past : i - sl.length ≠ 0 := by omega
    rw [List.getElem?_singleton, if_neg past] at found
    cases found

theorem moveLast_indexed (indexed : Indexed getIdx sl) (last : α) (fuel idx : Nat) :
    Indexed getIdx (o.heapify fuel (o.updateIdx (sl.dropLast.set idx last) idx) idx) := by
  refine heapify_indexed stored (updateIdx_indexed stored fun i x other found => ?_) _ _
  rw [List.getElem?_set_ne (Ne.symm other), List.getElem?_dropLast] at found
  split at found
  · exact indexed i x found
  · cases found

omit stored in
theorem dropLast_indexed (indexed : Indexed getIdx sl) : Indexed getIdx sl.dropLast := by
  intro i x found
  rw [List.getElem?_dropLast] at found
  split at found
  · exact indexed i x found
  · cases found

theorem pqueueRemove_indexed (indexed : Indexed getIdx sl) (idx : Nat) :
    Indexed getIdx (o.pqueueRemove sl idx) := by
  unfold pqueueRemove
  split
  · exact indexed
  · split
    · exact dropLast_indexed indexed
    · exact moveLast_indexed stored indexed _ _ _

theorem pqueuePop_indexed (indexed : Indexed getIdx sl) {item : α} {rest : List α}
    (popped : o.pqueuePop sl = some (item, rest)) : Indexed getIdx rest := by
  cases sl with
  | nil => cases popped
  | cons top tail =>
      simp only [pqueuePop] at popped
      cases last : tail.getLast? with
      | none =>
          simp only [last, Option.some.injEq, Prod.mk.injEq] at popped
          obtain ⟨-, rfl⟩ := popped
          intro i x found
          cases found
      | some z =>
          simp only [last, Option.some.injEq, Prod.mk.injEq] at popped
          obtain ⟨-, rfl⟩ := popped
          have nonempty : tail ≠ [] := fun empty => by
            rw [empty] at last
            cases last
          rw [← List.dropLast_cons_of_ne_nil nonempty]
          exact moveLast_indexed stored indexed _ _ _

end Positions

end HeapOrder
end TorJet.Smartlist
