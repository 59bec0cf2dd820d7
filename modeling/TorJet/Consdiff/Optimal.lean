import TorJet.Base.Lcs
import TorJet.Base.Text

/-!
# What is new and what is gone

`calc_changes`, which marks the lines of two slices that are not in a common subsequence of them.
-/

namespace TorJet.Consdiff
open Base

abbrev Line := Text

/-- A `smartlist_slice_t` -/
structure Slice where
  list : List Line
  offset : Nat
  len : Nat
  fits : offset + len ≤ list.length

/-- A `bitarray_t` -/
abbrev Bits := Nat → Bool

def bitarraySet (bits : Bits) (i : Nat) : Bits := fun j => j = i || bits j

namespace Slice

def lines (s : Slice) : List Line := (s.list.drop s.offset).take s.len

/-- `smartlist_slice` with an end. -/
def sub (s : Slice) (start stop : Nat) (le : start ≤ stop) (inside : stop ≤ s.len) : Slice :=
  ⟨s.list, s.offset + start, stop - start, by have := s.fits; omega⟩

def first (s : Slice) (some : 0 < s.len) : Line := s.list.get ⟨s.offset, by have := s.fits; omega⟩

def last (s : Slice) (some : 0 < s.len) : Line := s.list.get ⟨s.offset + s.len - 1, by have := s.fits; omega⟩

def dropFirst (s : Slice) (some : 0 < s.len) : Slice := ⟨s.list, s.offset + 1, s.len - 1, by have := s.fits; omega⟩

def dropLast (s : Slice) : Slice := ⟨s.list, s.offset, s.len - 1, by have := s.fits; omega⟩

def walk (s : Slice) (forward : Bool) : List Line := if forward then s.lines else s.lines.reverse

def stringPos (s : Slice) (string : Line) : Option Nat := (s.lines.findIdx? (· = string)).map (s.offset + ·)

end Slice

/-- The inner loop of `lcs_lengths`: what it writes after `left`, for the second slice's lines from here on and the
last results from here on. -/
def lcsRow (line1 : Line) (left : Nat) : List Line → List Nat → List Nat
  | line2 :: rest, parent :: above :: prev =>
      let r := if line1 = line2 then parent + 1 else max left above
      r :: lcsRow line1 r rest (above :: prev)
  | _, _ => []

def lcsLengths (slice1 slice2 : Slice) (forward : Bool) : List Nat :=
  (slice1.walk forward).foldl (fun result line1 => 0 :: lcsRow line1 0 (slice2.walk forward) result)
    (List.replicate (slice2.len + 1) 0)

/-- The first loop of `trim_slices`; the fuel is the length of the first slice. -/
def trimStart : Nat → Slice → Slice → Slice × Slice
  | 0, slice1, slice2 => (slice1, slice2)
  | fuel + 1, slice1, slice2 =>
      if some : 0 < slice1.len ∧ 0 < slice2.len then
        if slice1.first some.1 = slice2.first some.2 then
          trimStart fuel (slice1.dropFirst some.1) (slice2.dropFirst some.2)
        else (slice1, slice2)
      else (slice1, slice2)

/-- The second loop of `trim_slices`. -/
def trimEnd : Nat → Slice → Slice → Slice × Slice
  | 0, slice1, slice2 => (slice1, slice2)
  | fuel + 1, slice1, slice2 =>
      if some : 0 < slice1.len ∧ 0 < slice2.len then
        if slice1.last some.1 = slice2.last some.2 then trimEnd fuel slice1.dropLast slice2.dropLast
        else (slice1, slice2)
      else (slice1, slice2)

def trimSlices (slice1 slice2 : Slice) : Slice × Slice :=
  let (slice1, slice2) := trimStart slice1.len slice1 slice2
  trimEnd slice1.len slice1 slice2

/-- `set_changed`, for a first slice with a line at most. -/
def setChanged (changed1 changed2 : Bits) (slice1 slice2 : Slice) : Bits × Bits :=
  let toskip := if some : 0 < slice1.len then slice2.stringPos (slice1.first some) else none
  let changed1 := if 0 < slice1.len ∧ toskip = none then bitarraySet changed1 slice1.offset else changed1
  let changed2 :=
    (List.range' slice2.offset slice2.len).foldl (fun bits i => if some i ≠ toskip then bitarraySet bits i else bits)
      changed2
  (changed1, changed2)

/-- The loop of `optimal_column_to_split`, with the column and the sum that it keeps. -/
def bestColumn (sum : Nat → Nat) : Nat → Nat × Int
  | 0 => (0, -1)
  | i + 1 =>
      let (column, maxSum) := bestColumn sum i
      if maxSum < sum i then (i, sum i) else (column, maxSum)

def optimalColumnToSplit (top bot slice2 : Slice) : Nat :=
  let lensTop := lcsLengths top slice2 true
  let lensBot := lcsLengths bot slice2 false
  (bestColumn (fun i => lensTop.getD i 0 + lensBot.getD (slice2.len - i) 0) (slice2.len + 1)).1

theorem bestColumn_le (sum : Nat → Nat) (n : Nat) : (bestColumn sum (n + 1)).1 ≤ n := by
  have less (n : Nat) : (bestColumn sum n).1 ≤ n - 1 := by
    induction n with
    | zero => exact Nat.le_refl _
    | succ n ih =>
        rw [bestColumn]
        dsimp only
        split
        · simp
        · omega
  exact less (n + 1)

theorem optimalColumnToSplit_le (top bot slice2 : Slice) : optimalColumnToSplit top bot slice2 ≤ slice2.len :=
  bestColumn_le _ _

/-- `calc_changes`; the fuel bounds the depth. -/
def calcChanges : Nat → Slice → Slice → Bits → Bits → Option (Bits × Bits)
  | 0, _, _, _, _ => none
  | fuel + 1, slice1, slice2, changed1, changed2 =>
      let (slice1, slice2) := trimSlices slice1 slice2
      if slice1.len ≤ 1 then some (setChanged changed1 changed2 slice1 slice2)
      else if slice2.len ≤ 1 then some (setChanged changed2 changed1 slice2 slice1).swap
      else
        let mid := slice1.len / 2
        let top := slice1.sub 0 mid (Nat.zero_le _) (Nat.div_le_self _ _)
        let bot := slice1.sub mid slice1.len (Nat.div_le_self _ _) (Nat.le_refl _)
        let mid2 := optimalColumnToSplit top bot slice2
        let left := slice2.sub 0 mid2 (Nat.zero_le _) (optimalColumnToSplit_le top bot slice2)
        let right := slice2.sub mid2 slice2.len (optimalColumnToSplit_le top bot slice2) (Nat.le_refl _)
        match calcChanges fuel top left changed1 changed2 with
        | none => none
        | some (changed1, changed2) => calcChanges fuel bot right changed1 changed2

end TorJet.Consdiff

/-!
## The marks are as few as can be

The lines that `calc_changes` leaves unmarked are a longest common subsequence of the two slices.
-/

namespace TorJet.Consdiff
open Base
open scoped List

/-! ## Slices -/

section Slices
variable {s : Slice} {start stop : Nat}

theorem Slice.length_lines (s : Slice) : s.lines.length = s.len := by
  have fits := s.fits
  rw [lines, List.length_take, List.length_drop]
  omega

theorem Slice.lines_sub (le : start ≤ stop) (inside : stop ≤ s.len) :
    (s.sub start stop le inside).lines = (s.lines.drop start).take (stop - start) := by
  rw [lines, lines, List.drop_take, List.take_take, List.drop_drop, Nat.min_eq_left (by omega)]
  rfl

theorem Slice.lines_top (inside : stop ≤ s.len) : (s.sub 0 stop (Nat.zero_le _) inside).lines = s.lines.take stop := by
  rw [lines_sub, List.drop_zero, Nat.sub_zero]

theorem Slice.lines_bot (inside : start ≤ s.len) : (s.sub start s.len inside (Nat.le_refl _)).lines = s.lines.drop start := by
  rw [lines_sub, List.take_of_length_le]
  rw [List.length_drop, length_lines]

theorem Slice.lines_first (some : 0 < s.len) : s.lines = s.first some :: (s.dropFirst some).lines := by
  have fits := s.fits
  have get : s.offset < s.list.length := by omega
  obtain ⟨len, length⟩ := Nat.exists_eq_add_one.mpr some
  rw [lines, lines, List.drop_eq_getElem_cons get, length, List.take_succ_cons]
  simp [first, dropFirst, length]

theorem Slice.lines_last (some : 0 < s.len) : s.lines = s.dropLast.lines ++ [s.last some] := by
  have fits := s.fits
  obtain ⟨len, length⟩ := Nat.exists_eq_add_one.mpr some
  have get : (s.list.drop s.offset)[len]? = .some (s.last some) := by
    rw [List.getElem?_drop, List.getElem?_eq_getElem (by omega)]
    simp [last, length]
  rw [lines, lines, length, List.take_add_one, get]
  simp [dropLast, length]

end Slices

/-! ## The lengths -/

section Lengths
variable {xs : List Line} {line1 : Line}

theorem lcsRow_eq (xs : List Line) (line1 : Line) (rest : List Line) (done : List Line) :
    lcsRow line1 (lcs (xs ++ [line1]) done) rest ((List.range (rest.length + 1)).map fun j => lcs xs (done ++ rest.take j)) =
      (List.range rest.length).map fun j => lcs (xs ++ [line1]) (done ++ rest.take (j + 1)) := by
  induction rest generalizing done with
  | nil => rfl
  | cons line2 rest ih =>
      have next := ih (done ++ [line2])
      simp only [List.append_assoc, List.singleton_append] at next
      have value : (if line1 = line2 then lcs xs done + 1 else max (lcs (xs ++ [line1]) done) (lcs xs (done ++ [line2]))) =
          lcs (xs ++ [line1]) (done ++ [line2]) := by
        split
        · rename_i same
          rw [same, lcs_concat_same]
        · rename_i differ
          rw [lcs_concat_ne differ]
      have above : (List.range (rest.length + 1)).map (fun j => lcs xs (done ++ line2 :: rest.take j)) =
          lcs xs (done ++ [line2]) ::
            (List.range rest.length).map (fun j => lcs xs (done ++ line2 :: rest.take (j + 1))) := by
        rw [List.range_succ_eq_map, List.map_cons, List.map_map]
        rfl
      have shift (f : Nat → Nat) : (List.range (rest.length + 1)).map f =
          f 0 :: (List.range rest.length).map (fun j => f (j + 1)) := by
        rw [List.range_succ_eq_map, List.map_cons, List.map_map]
        rfl
      rw [List.length_cons, List.range_succ_eq_map, List.map_cons, List.map_map]
      simp only [Function.comp_def, Nat.succ_eq_add_one, List.take_zero, List.append_nil, List.take_succ_cons]
      rw [shift fun j => lcs (xs ++ [line1]) (done ++ line2 :: rest.take j), above, lcsRow]
      rw [value, ← above, next]
      rfl

theorem lcsLengths_eq (xs ys : List Line) :
    xs.foldl (fun result line1 => 0 :: lcsRow line1 0 ys result) (List.replicate (ys.length + 1) 0) =
      (List.range (ys.length + 1)).map fun j => lcs xs (ys.take j) := by
  induction xs using List.reverseRecOn with
  | nil =>
      rw [List.foldl_nil, eq_comm, List.eq_replicate_iff]
      refine ⟨by simp, fun n mem => ?_⟩
      obtain ⟨j, -, rfl⟩ := List.mem_map.mp mem
      exact lcs_nil_left _
  | append_singleton xs line1 ih =>
      have row := lcsRow_eq xs line1 ys []
      simp only [lcs_nil_right, List.nil_append] at row
      rw [List.foldl_concat, ih, row, List.range_succ_eq_map, List.map_cons, List.map_map]
      simp only [List.take_zero, lcs_nil_right]
      rfl

theorem lcsLengths_getD (slice1 slice2 : Slice) (forward : Bool) {j : Nat} (inside : j ≤ slice2.len) :
    (lcsLengths slice1 slice2 forward).getD j 0 = lcs (slice1.walk forward) ((slice2.walk forward).take j) := by
  have length : (slice2.walk forward).length = slice2.len := by
    rw [Slice.walk]
    split
    · exact slice2.length_lines
    · rw [List.length_reverse, slice2.length_lines]
  rw [lcsLengths, ← length, lcsLengths_eq, List.getD_eq_getElem?_getD, List.getElem?_map, List.getElem?_range (by omega)]
  rfl

theorem bestColumn_spec (sum : Nat → Nat) (n : Nat) :
    (∀ i < n, (sum i : Int) ≤ (bestColumn sum n).2) ∧
      (0 < n → (bestColumn sum n).2 = sum (bestColumn sum n).1) ∧ (n = 0 → (bestColumn sum n).2 = -1) := by
  induction n with
  | zero => exact ⟨fun i less => absurd less (Nat.not_lt_zero i), fun less => absurd less (Nat.lt_irrefl 0), fun _ => rfl⟩
  | succ n ih =>
      obtain ⟨most, here, start⟩ := ih
      rw [bestColumn]
      dsimp only
      split
      · rename_i better
        refine ⟨fun i less => ?_, fun _ => rfl, by omega⟩
        rcases Nat.lt_succ_iff_lt_or_eq.mp less with before | rfl
        · exact (most i before).trans (Int.le_of_lt better)
        · exact Int.le_refl _
      · rename_i worse
        rw [Int.not_lt] at worse
        refine ⟨fun i less => ?_, fun _ => here ?_, by omega⟩
        · rcases Nat.lt_succ_iff_lt_or_eq.mp less with before | rfl
          · exact most i before
          · exact worse
        · rw [Nat.pos_iff_ne_zero]
          intro zero
          have := start zero
          omega

theorem optimalColumnToSplit_spec (top bot slice2 : Slice) :
    lcs (top.lines ++ bot.lines) slice2.lines =
      lcs top.lines (slice2.lines.take (optimalColumnToSplit top bot slice2)) +
        lcs bot.lines (slice2.lines.drop (optimalColumnToSplit top bot slice2)) := by
  have sums {i : Nat} (inside : i ≤ slice2.len) :
      (lcsLengths top slice2 true).getD i 0 + (lcsLengths bot slice2 false).getD (slice2.len - i) 0 =
        lcs top.lines (slice2.lines.take i) + lcs bot.lines (slice2.lines.drop i) := by
    have back : (slice2.walk false).take (slice2.len - i) = (slice2.lines.drop i).reverse := by
      rw [List.reverse_drop, slice2.length_lines]
      rfl
    rw [lcsLengths_getD _ _ _ inside, lcsLengths_getD _ _ _ (Nat.sub_le _ _), back]
    exact congrArg (_ + ·) (lcs_reverse _ _)
  obtain ⟨most, here, -⟩ := bestColumn_spec
    (fun i => (lcsLengths top slice2 true).getD i 0 + (lcsLengths bot slice2 false).getD (slice2.len - i) 0) (slice2.len + 1)
  obtain ⟨i, inside, best⟩ := exists_split top.lines bot.lines slice2.lines
  rw [slice2.length_lines] at inside
  have column := optimalColumnToSplit_le top bot slice2
  apply Nat.le_antisymm
  · have le := most i (by omega)
    rw [here (Nat.succ_pos _)] at le
    change ((_ : Nat) : Int) ≤ ((_ : Nat) : Int) at le
    rw [Int.ofNat_le, sums inside] at le
    rw [best, ← sums column]
    exact le
  · have le := lcs_add_le top.lines bot.lines (slice2.lines.take (optimalColumnToSplit top bot slice2))
      (slice2.lines.drop (optimalColumnToSplit top bot slice2))
    rwa [List.take_append_drop] at le

end Lengths

/-! ## Marks -/

def kept (bits : Bits) : Nat → List Line → List Line
  | _, [] => []
  | i, line :: rest => if bits i then kept bits (i + 1) rest else line :: kept bits (i + 1) rest

def Slice.unmarked (s : Slice) (bits : Bits) : List Line := kept bits s.offset s.lines

def union (bits more : Bits) : Bits := fun i => bits i || more i

structure Marks (slice1 slice2 : Slice) (m1 m2 : Bits) : Prop where
  inside1 : ∀ i, m1 i = true → slice1.offset ≤ i ∧ i < slice1.offset + slice1.len
  inside2 : ∀ i, m2 i = true → slice2.offset ≤ i ∧ i < slice2.offset + slice2.len
  same : slice1.unmarked m1 = slice2.unmarked m2
  length : (slice1.unmarked m1).length = lcs slice1.lines slice2.lines

structure Trimmed (slice1 slice2 trimmed1 trimmed2 : Slice) (start stop : List Line) : Prop where
  lines1 : slice1.lines = start ++ trimmed1.lines ++ stop
  lines2 : slice2.lines = start ++ trimmed2.lines ++ stop
  offset1 : trimmed1.offset = slice1.offset + start.length
  offset2 : trimmed2.offset = slice2.offset + start.length

section Kept
variable {bits more m1 m2 : Bits} {xs ys : List Line} {i : Nat} {slice1 slice2 trimmed1 trimmed2 : Slice}

theorem kept_append (bits : Bits) (i : Nat) (xs ys : List Line) :
    kept bits i (xs ++ ys) = kept bits i xs ++ kept bits (i + xs.length) ys := by
  induction xs generalizing i with
  | nil => rfl
  | cons line xs ih =>
      rw [List.cons_append, kept, kept, ih, List.length_cons, Nat.add_assoc, Nat.add_comm 1]
      split <;> rfl

theorem kept_congr (agree : ∀ j, i ≤ j → j < i + xs.length → bits j = more j) : kept bits i xs = kept more i xs := by
  induction xs generalizing i with
  | nil => rfl
  | cons line xs ih =>
      rw [List.length_cons] at agree
      rw [kept, kept, agree i (Nat.le_refl i) (by omega), ih fun j le less => agree j (by omega) (by omega)]

theorem kept_clear (clear : ∀ j, i ≤ j → j < i + xs.length → bits j = false) : kept bits i xs = xs := by
  induction xs generalizing i with
  | nil => rfl
  | cons line xs ih =>
      rw [List.length_cons] at clear
      rw [kept, clear i (Nat.le_refl i) (by omega), ih fun j le less => clear j (by omega) (by omega)]
      rfl

theorem kept_set (set : ∀ j, i ≤ j → j < i + xs.length → bits j = true) : kept bits i xs = [] := by
  induction xs generalizing i with
  | nil => rfl
  | cons line xs ih =>
      rw [List.length_cons] at set
      rw [kept, set i (Nat.le_refl i) (by omega), ih fun j le less => set j (by omega) (by omega)]
      rfl

theorem Marks.swap (marks : Marks slice1 slice2 m1 m2) : Marks slice2 slice1 m2 m1 :=
  ⟨marks.inside2, marks.inside1, marks.same.symm, by rw [← marks.same, marks.length, lcs_comm]⟩

theorem Trimmed.refl (slice1 slice2 : Slice) : Trimmed slice1 slice2 slice1 slice2 [] [] :=
  ⟨by simp, by simp, rfl, rfl⟩

theorem Trimmed.trans {start start' stop stop' : List Line} {last1 last2 : Slice}
    (first : Trimmed slice1 slice2 trimmed1 trimmed2 start stop)
    (second : Trimmed trimmed1 trimmed2 last1 last2 start' stop') :
    Trimmed slice1 slice2 last1 last2 (start ++ start') (stop' ++ stop) := by
  refine ⟨?_, ?_, ?_, ?_⟩
  · rw [first.lines1, second.lines1]
    simp only [List.append_assoc]
  · rw [first.lines2, second.lines2]
    simp only [List.append_assoc]
  · rw [second.offset1, first.offset1, List.length_append, Nat.add_assoc]
  · rw [second.offset2, first.offset2, List.length_append, Nat.add_assoc]

theorem trimStart_trimmed (fuel : Nat) (slice1 slice2 : Slice) :
    ∃ start, Trimmed slice1 slice2 (trimStart fuel slice1 slice2).1 (trimStart fuel slice1 slice2).2 start [] := by
  induction fuel generalizing slice1 slice2 with
  | zero => exact ⟨[], .refl _ _⟩
  | succ fuel ih =>
      rw [trimStart]
      split
      · rename_i some
        split
        · rename_i same
          obtain ⟨start, rest⟩ := ih (slice1.dropFirst some.1) (slice2.dropFirst some.2)
          have one : Trimmed slice1 slice2 (slice1.dropFirst some.1) (slice2.dropFirst some.2) [slice1.first some.1] [] := by
            refine ⟨?_, ?_, rfl, rfl⟩
            · rw [Slice.lines_first some.1, List.append_nil, List.singleton_append]
            · rw [same, Slice.lines_first some.2, List.append_nil, List.singleton_append]
          exact ⟨_, one.trans rest⟩
        · exact ⟨[], .refl _ _⟩
      · exact ⟨[], .refl _ _⟩

theorem trimEnd_trimmed (fuel : Nat) (slice1 slice2 : Slice) :
    ∃ stop, Trimmed slice1 slice2 (trimEnd fuel slice1 slice2).1 (trimEnd fuel slice1 slice2).2 [] stop := by
  induction fuel generalizing slice1 slice2 with
  | zero => exact ⟨[], .refl _ _⟩
  | succ fuel ih =>
      rw [trimEnd]
      split
      · rename_i some
        split
        · rename_i same
          obtain ⟨stop, rest⟩ := ih slice1.dropLast slice2.dropLast
          have one : Trimmed slice1 slice2 slice1.dropLast slice2.dropLast [] [slice1.last some.1] := by
            refine ⟨?_, ?_, rfl, rfl⟩
            · rw [List.nil_append]
              exact Slice.lines_last some.1
            · rw [same, List.nil_append]
              exact Slice.lines_last some.2
          exact ⟨_, one.trans rest⟩
        · exact ⟨[], .refl _ _⟩
      · exact ⟨[], .refl _ _⟩

theorem trimSlices_trimmed (slice1 slice2 : Slice) :
    ∃ start stop, Trimmed slice1 slice2 (trimSlices slice1 slice2).1 (trimSlices slice1 slice2).2 start stop := by
  obtain ⟨start, first⟩ := trimStart_trimmed slice1.len slice1 slice2
  obtain ⟨stop, second⟩ := trimEnd_trimmed (trimStart slice1.len slice1 slice2).1.len
    (trimStart slice1.len slice1 slice2).1 (trimStart slice1.len slice1 slice2).2
  exact ⟨_, _, first.trans second⟩

theorem Trimmed.len {start stop : List Line} (trimmed : Trimmed slice1 slice2 trimmed1 trimmed2 start stop) :
    slice1.len = start.length + trimmed1.len + stop.length ∧ slice2.len = start.length + trimmed2.len + stop.length := by
  rw [← slice1.length_lines, ← slice2.length_lines, trimmed.lines1, trimmed.lines2]
  simp [Slice.length_lines, Nat.add_assoc]

theorem Trimmed.unmarked {start stop : List Line} (trimmed : Trimmed slice1 slice2 trimmed1 trimmed2 start stop)
    (inside : ∀ i, bits i = true → trimmed1.offset ≤ i ∧ i < trimmed1.offset + trimmed1.len) :
    slice1.unmarked bits = start ++ trimmed1.unmarked bits ++ stop := by
  have offset := trimmed.offset1
  have length := trimmed1.length_lines
  have clear (j : Nat) (outside : j < trimmed1.offset ∨ trimmed1.offset + trimmed1.len ≤ j) : bits j = false := by
    rw [← Bool.not_eq_true]
    intro set
    have := inside j set
    omega
  have before : kept bits slice1.offset start = start := kept_clear fun j le less => clear j (by omega)
  have after : kept bits (slice1.offset + (start ++ trimmed1.lines).length) stop = stop := by
    rw [List.length_append, length]
    exact kept_clear fun j le less => clear j (by omega)
  rw [Slice.unmarked, trimmed.lines1, kept_append, kept_append, before, after, ← offset]
  rfl

theorem Trimmed.swap {start stop : List Line} (trimmed : Trimmed slice1 slice2 trimmed1 trimmed2 start stop) :
    Trimmed slice2 slice1 trimmed2 trimmed1 start stop :=
  ⟨trimmed.lines2, trimmed.lines1, trimmed.offset2, trimmed.offset1⟩

theorem Trimmed.marks {start stop : List Line} (trimmed : Trimmed slice1 slice2 trimmed1 trimmed2 start stop)
    (marks : Marks trimmed1 trimmed2 m1 m2) : Marks slice1 slice2 m1 m2 := by
  have lens := trimmed.len
  have offset1 := trimmed.offset1
  have offset2 := trimmed.offset2
  have left := trimmed.unmarked marks.inside1
  have right := trimmed.swap.unmarked marks.inside2
  refine ⟨fun i set => ?_, fun i set => ?_, ?_, ?_⟩
  · have := marks.inside1 i set
    omega
  · have := marks.inside2 i set
    omega
  · rw [left, right, marks.same]
  · rw [left, trimmed.lines1, trimmed.lines2, lcs_append_right, lcs_append_left, ← marks.length, List.length_append,
      List.length_append]

theorem setAll_eq (toskip : Option Nat) (places : List Nat) (bits : Bits) :
    places.foldl (fun bits i => if some i ≠ toskip then bitarraySet bits i else bits) bits =
      union bits fun j => j ∈ places && some j ≠ toskip := by
  induction places generalizing bits with
  | nil =>
      funext j
      simp [union]
  | cons i places ih =>
      rw [List.foldl_cons, ih]
      funext j
      by_cases here : j = i
      · subst here
        by_cases skip : some j = toskip
        · simp [union, skip]
        · simp [union, skip, bitarraySet]
      · by_cases skip : some i = toskip
        · simp [union, skip, here]
        · simp [union, skip, here, bitarraySet]

theorem setChanged_marks (slice2 : Slice) (short : slice1.len ≤ 1) :
    ∃ m1 m2, Marks slice1 slice2 m1 m2 ∧
      ∀ c1 c2, setChanged c1 c2 slice1 slice2 = (union c1 m1, union c2 m2) := by
  let toskip := if some : 0 < slice1.len then slice2.stringPos (slice1.first some) else none
  let m1 : Bits := fun j => 0 < slice1.len && toskip = none && j = slice1.offset
  let m2 : Bits := fun j => j ∈ List.range' slice2.offset slice2.len && some j ≠ toskip
  have inside1 (i : Nat) (set : m1 i = true) : slice1.offset ≤ i ∧ i < slice1.offset + slice1.len := by
    simp only [m1, Bool.and_eq_true, decide_eq_true_eq] at set
    omega
  have inside2 (i : Nat) (set : m2 i = true) : slice2.offset ≤ i ∧ i < slice2.offset + slice2.len := by
    simp only [m2, Bool.and_eq_true, decide_eq_true_eq, List.mem_range'_1] at set
    exact set.1
  have all (j : Nat) (le : slice2.offset ≤ j) (less : j < slice2.offset + slice2.lines.length)
      (other : some j ≠ toskip) : m2 j = true := by
    rw [slice2.length_lines] at less
    simp only [m2, Bool.and_eq_true, decide_eq_true_eq, List.mem_range'_1]
    exact ⟨⟨le, less⟩, other⟩
  refine ⟨m1, m2, ?_, fun c1 c2 => ?_⟩
  · have unmarked : slice1.unmarked m1 = slice2.unmarked m2 ∧ (slice1.unmarked m1).length = lcs slice1.lines slice2.lines := by
      rcases Nat.eq_zero_or_pos slice1.len with empty | some
      · have nothing : slice1.lines = [] := List.length_eq_zero_iff.mp (slice1.length_lines.trans empty)
        have skip : toskip = none := dif_neg (by omega)
        have right : slice2.unmarked m2 = [] := kept_set fun j le less => all j le less (by rw [skip]; simp)
        rw [right, Slice.unmarked, nothing, lcs_nil_left]
        exact ⟨rfl, rfl⟩
      · have single : slice1.lines = [slice1.first some] := by
          have length := (slice1.dropFirst some).length_lines
          have none : (slice1.dropFirst some).lines = [] :=
            List.length_eq_zero_iff.mp (length.trans (Nat.sub_eq_zero_of_le short))
          rw [Slice.lines_first some, none]
        have left : slice1.unmarked m1 = if toskip = none then [] else [slice1.first some] := by
          rw [Slice.unmarked, single, kept, kept]
          by_cases skip : toskip = none
          · simp [m1, some, skip]
          · simp [m1, skip]
        have skip : toskip = slice2.stringPos (slice1.first some) := dif_pos some
        rw [single, lcs_singleton, left]
        cases pos : slice2.stringPos (slice1.first some) with
        | none =>
            rw [pos] at skip
            have absent : slice1.first some ∉ slice2.lines := by
              intro mem
              have none := List.findIdx?_eq_none_iff.mp (Option.map_eq_none_iff.mp pos) _ mem
              simp at none
            have right : slice2.unmarked m2 = [] := kept_set fun j le less => all j le less (by rw [skip]; simp)
            rw [right, skip, if_pos rfl, if_neg absent]
            exact ⟨rfl, rfl⟩
        | some k =>
            rw [pos] at skip
            obtain ⟨i, found, rfl⟩ := Option.map_eq_some_iff.mp pos
            obtain ⟨range, here, -⟩ := List.findIdx?_eq_some_iff_getElem.mp found
            have line : slice2.lines[i] = slice1.first some := of_decide_eq_true here
            have split : slice2.lines = slice2.lines.take i ++ slice1.first some :: slice2.lines.drop (i + 1) := by
              rw [← line, List.cons_getElem_drop_succ, List.take_append_drop]
            have place : (slice2.lines.take i).length = i := by rw [List.length_take]; omega
            have before : kept m2 slice2.offset (slice2.lines.take i) = [] := by
              refine kept_set fun j le less => ?_
              rw [place] at less
              refine all j le (by omega) ?_
              rw [skip]
              simp
              omega
            have after : kept m2 (slice2.offset + i + 1) (slice2.lines.drop (i + 1)) = [] := by
              refine kept_set fun j le less => ?_
              rw [List.length_drop] at less
              refine all j (by omega) (by omega) ?_
              rw [skip]
              simp
              omega
            have open_ : m2 (slice2.offset + i) = false := by simp [m2, skip]
            have right : slice2.unmarked m2 = [slice1.first some] := by
              rw [Slice.unmarked, split, kept_append, before, place, List.nil_append, kept, open_, after]
              rfl
            have mem : slice1.first some ∈ slice2.lines := by
              rw [← line]
              exact List.getElem_mem range
            rw [right, skip, if_neg (by simp), if_pos mem]
            exact ⟨rfl, rfl⟩
    exact ⟨inside1, inside2, unmarked.1, unmarked.2⟩
  · rw [setChanged]
    rw [setAll_eq]
    refine Prod.ext ?_ rfl
    dsimp only
    funext j
    by_cases marks : 0 < slice1.len ∧ toskip = none
    · rw [if_pos marks]
      simp [bitarraySet, union, m1, marks.1, marks.2, Bool.or_comm]
    · rw [if_neg marks]
      have clear : m1 j = false := by
        simp only [m1, Bool.and_eq_false_iff, decide_eq_false_iff_not]
        tauto
      rw [union, clear, Bool.or_false]

theorem unmarked_union {s : Slice} {mid : Nat} (inside : mid ≤ s.len)
    (first : ∀ i, bits i = true → s.offset ≤ i ∧ i < s.offset + mid)
    (second : ∀ i, more i = true → s.offset + mid ≤ i) :
    s.unmarked (union bits more) =
      (s.sub 0 mid (Nat.zero_le _) inside).unmarked bits ++ (s.sub mid s.len inside (Nat.le_refl _)).unmarked more := by
  have length : (s.lines.take mid).length = mid := by
    rw [List.length_take, s.length_lines]
    exact Nat.min_eq_left inside
  have left : kept (union bits more) s.offset (s.lines.take mid) = kept bits s.offset (s.lines.take mid) := by
    refine kept_congr fun j le less => ?_
    rw [length] at less
    have clear : more j = false := by
      rw [← Bool.not_eq_true]
      intro set
      have := second j set
      omega
    rw [union, clear, Bool.or_false]
  have right : kept (union bits more) (s.offset + mid) (s.lines.drop mid) = kept more (s.offset + mid) (s.lines.drop mid) := by
    refine kept_congr fun j le less => ?_
    have clear : bits j = false := by
      rw [← Bool.not_eq_true]
      intro set
      have := first j set
      omega
    rw [union, clear, Bool.false_or]
  calc s.unmarked (union bits more)
    _ = kept (union bits more) s.offset (s.lines.take mid ++ s.lines.drop mid) := by
        rw [List.take_append_drop, Slice.unmarked]
    _ = kept bits s.offset (s.lines.take mid) ++ kept more (s.offset + mid) (s.lines.drop mid) := by
        rw [kept_append, left, length, right]
    _ = _ := by rw [Slice.unmarked, Slice.unmarked, Slice.lines_top, Slice.lines_bot]; rfl

theorem Marks.append {more1 more2 : Bits} {mid mid2 : Nat} (inside : mid ≤ slice1.len) (inside2 : mid2 ≤ slice2.len)
    (best : lcs slice1.lines slice2.lines =
      lcs (slice1.lines.take mid) (slice2.lines.take mid2) + lcs (slice1.lines.drop mid) (slice2.lines.drop mid2))
    (first : Marks (slice1.sub 0 mid (Nat.zero_le _) inside) (slice2.sub 0 mid2 (Nat.zero_le _) inside2) m1 m2)
    (second : Marks (slice1.sub mid slice1.len inside (Nat.le_refl _))
      (slice2.sub mid2 slice2.len inside2 (Nat.le_refl _)) more1 more2) :
    Marks slice1 slice2 (union m1 more1) (union m2 more2) := by
  have first1 (i : Nat) (set : m1 i = true) : slice1.offset ≤ i ∧ i < slice1.offset + mid := first.inside1 i set
  have first2 (i : Nat) (set : m2 i = true) : slice2.offset ≤ i ∧ i < slice2.offset + mid2 := first.inside2 i set
  have second1 (i : Nat) (set : more1 i = true) : slice1.offset + mid ≤ i ∧ i < slice1.offset + mid + (slice1.len - mid) :=
    second.inside1 i set
  have second2 (i : Nat) (set : more2 i = true) :
      slice2.offset + mid2 ≤ i ∧ i < slice2.offset + mid2 + (slice2.len - mid2) := second.inside2 i set
  have left := unmarked_union inside first1 fun i set => (second1 i set).1
  have right := unmarked_union inside2 first2 fun i set => (second2 i set).1
  refine ⟨fun i set => ?_, fun i set => ?_, ?_, ?_⟩
  · rcases Bool.or_eq_true_iff.mp set with here | later
    · have := first1 i here
      omega
    · have := second1 i later
      omega
  · rcases Bool.or_eq_true_iff.mp set with here | later
    · have := first2 i here
      omega
    · have := second2 i later
      omega
  · rw [left, right, first.same, second.same]
  · rw [left, List.length_append, first.length, second.length, Slice.lines_top, Slice.lines_top, Slice.lines_bot,
      Slice.lines_bot, best]

theorem calcChanges_marks (slice1 slice2 : Slice) :
    ∃ m1 m2, Marks slice1 slice2 m1 m2 ∧ ∀ fuel c1 c2, slice1.len < fuel →
      calcChanges fuel slice1 slice2 c1 c2 = some (union c1 m1, union c2 m2) := by
  induction length : slice1.len using Nat.strong_induction_on generalizing slice1 slice2 with
  | _ n ih =>
      obtain ⟨start, stop, trimmed⟩ := trimSlices_trimmed slice1 slice2
      have shorter := trimmed.len.1
      generalize cut : trimSlices slice1 slice2 = slices at trimmed shorter
      obtain ⟨t1, t2⟩ := slices
      dsimp only at trimmed shorter
      by_cases short1 : t1.len ≤ 1
      · obtain ⟨m1, m2, marks, sets⟩ := setChanged_marks t2 short1
        refine ⟨m1, m2, trimmed.marks marks, fun fuel c1 c2 enough => ?_⟩
        obtain ⟨fuel, rfl⟩ := Nat.exists_eq_add_one.mpr (Nat.zero_lt_of_lt enough)
        rw [calcChanges, cut]
        dsimp only
        rw [if_pos short1, sets]
      · by_cases short2 : t2.len ≤ 1
        · obtain ⟨m2, m1, marks, sets⟩ := setChanged_marks t1 short2
          refine ⟨m1, m2, trimmed.marks marks.swap, fun fuel c1 c2 enough => ?_⟩
          obtain ⟨fuel, rfl⟩ := Nat.exists_eq_add_one.mpr (Nat.zero_lt_of_lt enough)
          rw [calcChanges, cut]
          dsimp only
          rw [if_neg short1, if_pos short2, sets]
          rfl
        · have half := Nat.div_le_self t1.len 2
          let top := t1.sub 0 (t1.len / 2) (Nat.zero_le _) half
          let bot := t1.sub (t1.len / 2) t1.len half (Nat.le_refl _)
          have column := optimalColumnToSplit_le top bot t2
          have topLen : top.len = t1.len / 2 := rfl
          have botLen : bot.len = t1.len - t1.len / 2 := rfl
          obtain ⟨m1, m2, first, firstRun⟩ := ih top.len (by omega) top
            (t2.sub 0 (optimalColumnToSplit top bot t2) (Nat.zero_le _) column) rfl
          obtain ⟨more1, more2, second, secondRun⟩ := ih bot.len (by omega) bot
            (t2.sub (optimalColumnToSplit top bot t2) t2.len column (Nat.le_refl _)) rfl
          have best := optimalColumnToSplit_spec top bot t2
          rw [Slice.lines_top, Slice.lines_bot, List.take_append_drop] at best
          refine ⟨_, _, trimmed.marks (Marks.append half column best first second), fun fuel c1 c2 enough => ?_⟩
          obtain ⟨fuel, rfl⟩ := Nat.exists_eq_add_one.mpr (Nat.zero_lt_of_lt enough)
          have joined (c m more : Bits) : union (union c m) more = union c (union m more) := by
            funext i
            exact Bool.or_assoc _ _ _
          rw [calcChanges, cut]
          dsimp only
          rw [if_neg short1, if_neg short2, firstRun fuel c1 c2 (by omega)]
          dsimp only
          rw [secondRun fuel _ _ (by omega), joined, joined]

end Kept

/-- The lines that are left unmarked are a longest common subsequence of the slices, and nothing else is marked. -/
theorem calcChanges_longest (slice1 slice2 : Slice) :
    ∃ m1 m2 : Bits,
      (∀ fuel c1 c2, slice1.len < fuel → calcChanges fuel slice1 slice2 c1 c2 = some (union c1 m1, union c2 m2)) ∧
      (∀ i, m1 i = true → slice1.offset ≤ i ∧ i < slice1.offset + slice1.len) ∧
      (∀ i, m2 i = true → slice2.offset ≤ i ∧ i < slice2.offset + slice2.len) ∧
      slice1.unmarked m1 = slice2.unmarked m2 ∧
      (slice1.unmarked m1).length = lcs slice1.lines slice2.lines := by
  obtain ⟨m1, m2, marks, runs⟩ := calcChanges_marks slice1 slice2
  exact ⟨m1, m2, runs, marks.inside1, marks.inside2, marks.same, marks.length⟩

end TorJet.Consdiff
