import TorJet.Consdiff.Edit
import TorJet.Consdiff.Generate
import TorJet.Consdiff.Optimal

/-!
# A diff gives back the target

Applied to its base, a generated script gives the target, unless the signatures of the base are a single line.
-/

namespace TorJet.Consdiff
open Base Net

/-! ## The marks leave the same lines -/

section Marks
variable {cons1 cons2 : List Line} {c c1 c2 : Cursor} {bits1 bits2 m1 : Bits} {fuel start start1 start2 : Nat}

def keptOf (bits : Bits) (n : Nat) (cons : List Line) : List Line := kept bits 0 (cons.take n)

structure Cursor.Inside (c : Cursor) (cons : List Line) : Prop where
  low : 0 ≤ c.idx
  high : c.idx ≤ cons.length

theorem Cursor.toEnd_inside : (c.toEnd cons1).Inside cons1 := ⟨Int.natCast_nonneg _, Int.le_refl _⟩

theorem nextRouter_inside (low : -1 ≤ c.idx) (high : c.idx < cons1.length) :
    c.idx < nextRouter cons1 c.idx ∧ nextRouter cons1 c.idx ≤ cons1.length := by
  have found : (cons1.drop (c.idx + 1).toNat).findIdx isValidRouterEntry ≤ cons1.length - (c.idx + 1).toNat := by
    rw [← List.length_drop]
    exact List.findIdx_le_length
  rw [nextRouter]
  omega

theorem findNextRouterLine_spec (low : -1 ≤ c.idx) (high : c.idx < cons1.length) :
    findNextRouterLine cons1 c = .error .null ∨
      ∃ after, findNextRouterLine cons1 c = .ok after ∧ after.Inside cons1 ∧ c.idx < after.idx := by
  obtain ⟨more, within⟩ := nextRouter_inside low high
  have inside {c' : Cursor} (idx : c'.idx = nextRouter cons1 c.idx) : c'.Inside cons1 ∧ c.idx < c'.idx := by
    rw [idx]
    exact ⟨⟨by rw [idx]; omega, by rw [idx]; exact within⟩, more⟩
  rw [findNextRouterLine]
  split
  · rename_i before
    have get : smartlistGet cons1 (nextRouter cons1 c.idx) = .ok cons1[(nextRouter cons1 c.idx).toNat] := by
      rw [smartlistGet, if_neg (by omega), List.getElem?_eq_getElem]
    rw [get]
    dsimp only
    split
    · exact .inl rfl
    · split
      · exact .inl rfl
      · exact .inr ⟨_, rfl, inside rfl⟩
  · exact .inr ⟨_, rfl, inside rfl⟩

theorem advanceLower_spec (inside1 : c1.Inside cons1) (inside2 : c2.Inside cons2)
    (enough : cons1.length - c1.idx + (cons2.length - c2.idx) < fuel) :
    advanceLower cons1 cons2 fuel c1 c2 = .error .null ∨
      ∃ after1 after2, advanceLower cons1 cons2 fuel c1 c2 = .ok (after1, after2) ∧
        (after1.Inside cons1 ∧ c1.idx ≤ after1.idx) ∧ after2.Inside cons2 ∧ c2.idx ≤ after2.idx := by
  induction fuel generalizing c1 c2 with
  | zero =>
      have := inside1.high
      have := inside2.high
      omega
  | succ fuel ih =>
      have low1 := inside1.low
      have low2 := inside2.low
      rw [advanceLower]
      split
      · exact .inr ⟨_, _, rfl, ⟨inside1, Int.le_refl _⟩, inside2, Int.le_refl _⟩
      · split
        · rename_i lower
          rcases findNextRouterLine_spec (by omega) lower.1 with null | ⟨next, found, inside, more⟩
          · rw [null]
            exact .inl rfl
          · rw [found]
            dsimp only
            split
            · exact .inr ⟨_, _, rfl, ⟨inside, Int.le_of_lt more⟩, Cursor.toEnd_inside, inside2.high⟩
            · rcases ih inside inside2 (by omega) with null | ⟨after1, after2, runs, ⟨first, le⟩, second⟩
              · exact .inl null
              · exact .inr ⟨after1, after2, runs, ⟨first, by omega⟩, second⟩
        · split
          · rename_i lower
            rcases findNextRouterLine_spec (by omega) lower.1 with null | ⟨next, found, inside, more⟩
            · rw [null]
              exact .inl rfl
            · rw [found]
              dsimp only
              split
              · exact .inr ⟨_, _, rfl, ⟨Cursor.toEnd_inside, inside1.high⟩, inside, Int.le_of_lt more⟩
              · rcases ih inside1 inside (by omega) with null | ⟨after1, after2, runs, first, second, le⟩
                · exact .inl null
                · exact .inr ⟨after1, after2, runs, first, second, by omega⟩
          · exact .inr ⟨_, _, rfl, ⟨Cursor.toEnd_inside, inside1.high⟩, Cursor.toEnd_inside, inside2.high⟩

structure Cursor.At (c : Cursor) (cons : List Line) (start : Nat) : Prop where
  low : -1 ≤ c.idx
  high : c.idx ≤ cons.length
  start : start = c.idx.toNat

theorem advance_spec (here : c.At cons1 start) :
    advance cons1 c = .error .null ∨
      ∃ after, advance cons1 c = .ok after ∧ after.Inside cons1 ∧ c.idx ≤ after.idx ∧
        (c.idx < cons1.length → c.idx < after.idx) := by
  rw [advance]
  split
  · rename_i before
    rcases findNextRouterLine_spec here.low before with null | ⟨after, found, inside, more⟩
    · exact .inl null
    · exact .inr ⟨after, found, inside, Int.le_of_lt more, fun _ => more⟩
  · rename_i atEnd
    have high := here.high
    exact .inr ⟨c, rfl, ⟨by omega, high⟩, Int.le_refl _, fun before => absurd before atEnd⟩

theorem nextPositions_spec (here1 : c1.At cons1 start1) (here2 : c2.At cons2 start2)
    (left : c1.idx < cons1.length ∨ c2.idx < cons2.length) :
    nextPositions cons1 cons2 c1 c2 = .error .null ∨
      ∃ after1 after2, nextPositions cons1 cons2 c1 c2 = .ok (after1, after2) ∧
        (after1.Inside cons1 ∧ c1.idx ≤ after1.idx) ∧ (after2.Inside cons2 ∧ c2.idx ≤ after2.idx) ∧
        c1.idx + c2.idx < after1.idx + after2.idx := by
  rw [nextPositions]
  rcases advance_spec here1 with null | ⟨mid1, first, inside1, le1, further1⟩
  · rw [null]
    exact .inl rfl
  · rw [first]
    dsimp only
    rcases advance_spec here2 with null | ⟨mid2, second, inside2, le2, further2⟩
    · rw [null]
      exact .inl rfl
    · rw [second]
      dsimp only
      have further : c1.idx + c2.idx < mid1.idx + mid2.idx := by
        rcases left with before | before
        · have := further1 before
          omega
        · have := further2 before
          omega
      split
      · have low1 := inside1.low
        have low2 := inside2.low
        rcases advanceLower_spec inside1 inside2 (show _ < ((cons1.length + cons2.length + 1 : Nat) : Int) by omega) with
          null | ⟨after1, after2, runs, ⟨in1, more1⟩, in2, more2⟩
        · exact .inl null
        · exact .inr ⟨after1, after2, runs, ⟨in1, by omega⟩, ⟨in2, by omega⟩, by omega⟩
      · exact .inr ⟨mid1, mid2, rfl, ⟨inside1, le1⟩, ⟨inside2, le2⟩, further⟩

theorem smartlistSlice_spec {stop : Int} (le : start1 ≤ stop) (high : stop ≤ cons1.length) :
    ∃ slice, smartlistSlice cons1 start1 stop = .ok slice ∧ slice.offset = start1 ∧ start1 + slice.len = stop.toNat ∧
      slice.lines = (cons1.take stop.toNat).drop start1 := by
  have whole : (if stop = -1 then (cons1.length : Int) else stop) = stop := if_neg (by omega)
  have inside : start1 ≤ cons1.length ∧ (start1 : Int) ≤ stop ∧ stop ≤ cons1.length := ⟨by omega, le, high⟩
  simp only [smartlistSlice, whole]
  rw [dif_pos inside]
  refine ⟨_, rfl, rfl, ?_, ?_⟩
  · dsimp only
    omega
  · rw [Slice.lines]
    dsimp only
    rw [List.drop_take]

theorem keptOf_union {slice : Slice} {stop : Nat} (le : start1 ≤ stop) (high : stop ≤ cons1.length)
    (offset : slice.offset = start1) (lines : slice.lines = (cons1.take stop).drop start1)
    (before : ∀ i, bits1 i = true → i < start1) (inside : ∀ i, m1 i = true → slice.offset ≤ i) :
    keptOf (union bits1 m1) stop cons1 = keptOf bits1 start1 cons1 ++ slice.unmarked m1 := by
  have split : cons1.take stop = cons1.take start1 ++ slice.lines := by
    have first : cons1.take start1 = (cons1.take stop).take start1 := by
      rw [List.take_take, Nat.min_eq_left (by omega)]
    rw [lines, first, List.take_append_drop]
  have length : (cons1.take start1).length = start1 := by
    rw [List.length_take]
    omega
  rw [keptOf, keptOf, split, kept_append, length, Slice.unmarked, offset, Nat.zero_add]
  congr 1
  · apply kept_congr
    intro j _ less
    have clear : m1 j = false := by
      rw [← Bool.not_eq_true]
      intro set
      have := inside j set
      omega
    rw [union, clear, Bool.or_false]
  · apply kept_congr
    intro j le _
    have clear : bits1 j = false := by
      rw [← Bool.not_eq_true]
      intro set
      have := before j set
      omega
    rw [union, clear, Bool.false_or]

theorem markChanges_spec (here1 : c1.At cons1 start1) (here2 : c2.At cons2 start2)
    (before1 : ∀ i, bits1 i = true → i < start1) (before2 : ∀ i, bits2 i = true → i < start2)
    (same : keptOf bits1 start1 cons1 = keptOf bits2 start2 cons2)
    (enough : cons1.length - c1.idx + (cons2.length - c2.idx) < fuel) :
    markChanges cons1 cons2 fuel c1 c2 start1 start2 bits1 bits2 = .error .null ∨
      ∃ m1 m2, markChanges cons1 cons2 fuel c1 c2 start1 start2 bits1 bits2 = .ok (m1, m2) ∧
        keptOf m1 cons1.length cons1 = keptOf m2 cons2.length cons2 := by
  induction fuel generalizing c1 c2 start1 start2 bits1 bits2 with
  | zero =>
      have := here1.high
      have := here2.high
      omega
  | succ fuel ih =>
      rw [markChanges]
      split
      · rename_i left
        rcases nextPositions_spec here1 here2 left with
          null | ⟨after1, after2, next, ⟨inside1, le1⟩, ⟨inside2, le2⟩, further⟩
        · rw [null]
          exact .inl rfl
        · rw [next]
          dsimp only
          split
          · exact .inl rfl
          · have low1 := inside1.low
            have low2 := inside2.low
            have high1 := inside1.high
            have high2 := inside2.high
            have place1 := here1.start
            have place2 := here2.start
            obtain ⟨slice1, sliced1, offset1, stops1, lines1⟩ :=
              smartlistSlice_spec (show (start1 : Int) ≤ after1.idx by omega) inside1.high
            obtain ⟨slice2, sliced2, offset2, stops2, lines2⟩ :=
              smartlistSlice_spec (show (start2 : Int) ≤ after2.idx by omega) inside2.high
            obtain ⟨more1, more2, marks, runs⟩ := calcChanges_marks slice1 slice2
            rw [sliced1, sliced2]
            dsimp only
            rw [runs _ _ _ (Nat.lt_succ_self _)]
            refine ih ⟨by omega, inside1.high, rfl⟩ ⟨by omega, inside2.high, rfl⟩ ?_ ?_ ?_ (by omega)
            · intro i set
              rcases Bool.or_eq_true_iff.mp set with old | new
              · have := before1 i old
                omega
              · have := marks.inside1 i new
                omega
            · intro i set
              rcases Bool.or_eq_true_iff.mp set with old | new
              · have := before2 i old
                omega
              · have := marks.inside2 i new
                omega
            · rw [keptOf_union (by omega) (by omega) offset1 lines1 before1 fun i set => (marks.inside1 i set).1,
                keptOf_union (by omega) (by omega) offset2 lines2 before2 fun i set => (marks.inside2 i set).1, same,
                marks.same]
      · rename_i done
        have end1 : start1 = cons1.length := by
          have := here1.high
          have := here1.start
          omega
        have end2 : start2 = cons2.length := by
          have := here2.high
          have := here2.start
          omega
        refine .inr ⟨bits1, bits2, rfl, ?_⟩
        rw [← end1, ← end2]
        exact same

end Marks

/-! ## The commands are read as they are written -/

section Read
variable {n start stop : Nat} {rest : Text} {c : Char} {action : Action}

theorem number_length (small : n ≤ int32Max) : (number n).length ≤ 10 := by
  rw [number, Nat.length_toDigits_le_iff (by decide) (by decide)]
  rw [int32Max] at small
  omega

theorem getLinenum_number (small : n ≤ int32Max) (stops : ∀ d ∈ rest.head?, torIsdigit d = false) :
    getLinenum (number n ++ rest) = some (n, rest) := by
  have digits : (number n ++ rest).takeWhile torIsdigit = number n := takeWhile_toDigits stops
  have value : decimal (number n) = n := decimal_toDigits n
  have valid : ¬(number n = [] ∨ int32Max < n) := by
    rw [not_or]
    exact ⟨Nat.toDigits_ne_nil, by omega⟩
  simp only [getLinenum, digits, value]
  rw [if_neg valid, List.drop_left]

theorem cstr_number (plain : cstr rest = rest) : cstr (number n ++ rest) = number n ++ rest := by
  have visible : ∀ d ∈ number n, decide (d ≠ '\x00') = true := by
    intro d mem
    have digit : torIsdigit d = true := torIsdigit_toDigits mem
    rw [decide_eq_true_eq]
    rintro rfl
    revert digit
    decide
  rw [cstr, List.takeWhile_append_of_pos visible]
  rw [cstr] at plain
  rw [plain]

theorem getAction_cases (letter : getAction c = some action) : c = 'a' ∨ c = 'c' ∨ c = 'd' := by
  rw [getAction.eq_def] at letter
  split at letter
  · exact .inl rfl
  · exact .inr (.inl rfl)
  · exact .inr (.inr rfl)
  · cases letter

theorem cstr_letter (letter : getAction c = some action) : cstr [c] = [c] := by
  rcases getAction_cases letter with rfl | rfl | rfl <;> rfl

theorem torIsdigit_letter (letter : getAction c = some action) : torIsdigit c = false := by
  rcases getAction_cases letter with rfl | rfl | rfl <;> rfl

theorem readCommand_line (small : n ≤ int32Max) (letter : getAction c = some action) :
    readCommand (number n ++ [c]) = some ⟨n, none, action⟩ := by
  have short := number_length small
  have range : getRange [c] = some (none, [c]) := by
    rcases getAction_cases letter with rfl | rfl | rfl <;> rfl
  rw [readCommand, if_neg (by simp; omega), cstr_number (cstr_letter letter), getLinenum_number small (by
    intro d mem
    obtain rfl := Option.some.inj mem
    exact torIsdigit_letter letter)]
  dsimp only
  rw [range]
  dsimp only
  rw [letter]
  simp

theorem readCommand_lines (small : start ≤ int32Max) (smallEnd : stop ≤ int32Max) (letter : getAction c = some action)
    (other : action ≠ .append) :
    readCommand (number start ++ ',' :: (number stop ++ [c])) = some ⟨start, some (some stop), action⟩ := by
  have short := number_length small
  have shortEnd := number_length smallEnd
  have comma : torIsdigit ',' = false := by decide
  have plain : cstr (',' :: (number stop ++ [c])) = ',' :: (number stop ++ [c]) := by
    have inner := cstr_number (n := stop) (cstr_letter letter)
    rw [cstr] at inner
    rw [cstr, List.takeWhile_cons_of_pos (by decide), inner]
  have range : getRange (',' :: (number stop ++ [c])) = some (some (some stop), [c]) := by
    have last : getLinenum (number stop ++ [c]) = some (stop, [c]) := by
      apply getLinenum_number smallEnd
      intro d mem
      obtain rfl := Option.some.inj mem
      exact torIsdigit_letter letter
    have digits : getRangeEnd (number stop ++ [c]) =
        (getLinenum (number stop ++ [c])).map fun p => (some p.1, p.2) := by
      obtain ⟨d, digits, split⟩ := List.exists_cons_of_ne_nil (Nat.toDigits_ne_nil (n := stop) (b := 10))
      have first : d ∈ Nat.toDigits 10 stop := by
        rw [split]
        exact List.mem_cons_self
      have digit : torIsdigit d = true := torIsdigit_toDigits first
      rw [number, split, List.cons_append, getRangeEnd.eq_def]
      split
      · rename_i dollar
        obtain ⟨rfl, -⟩ := List.cons.inj dollar
        exact absurd digit (by decide)
      · rfl
    rw [getRange, digits, last]
    rfl
  rw [readCommand, if_neg (by simp; omega), cstr_number plain, getLinenum_number small (by
    intro d mem
    obtain rfl := Option.some.inj mem
    exact comma)]
  dsimp only
  rw [range]
  dsimp only
  rw [letter]
  simp [other]

theorem readCommand_trailer (small : n ≤ int32Max) :
    readCommand (number n ++ ",$d".toList) = some ⟨n, some none, .delete⟩ := by
  have short := number_length small
  rw [readCommand, if_neg (by simp; omega), cstr_number rfl, getLinenum_number small (by
    intro d mem
    obtain rfl := Option.some.inj mem
    rfl)]
  rfl

end Read

/-! ## The script at work -/

/-- A command that deals with the lines from after the first `first` ones to `last`. -/
structure Spans (cmd : EdCommand) (eof first last : Nat) : Prop where
  le : first ≤ last
  stop : cmd.stop eof = last
  append : cmd.action = .append → first = last
  start : cmd.action ≠ .append → cmd.start = first + 1
  coherent : ¬(cmd.range ≠ none ∧ cmd.stop eof ≤ cmd.start)

section Apply
variable {cons1 diff acc text rest tail : List Line} {line : Line} {cmd : EdCommand} {fuel i j first last : Nat}

theorem removeLines_spans (spans : Spans cmd cons1.length first last) (low : last ≤ j) (high : j ≤ cons1.length)
    (done : (cons1.take j).drop last ++ acc.reverse = tail) :
    ∃ added, removeLines cons1 cmd j acc = .ok ((first : Int), added) ∧ added.reverse = tail := by
  have ordered := EdCommand.start_le_stop spans.coherent
  obtain ⟨added, runs, reversed⟩ := removeLines_spec acc (show (j : Int) ≤ cons1.length by omega) ordered
    (by rw [spans.stop]; omega)
  refine ⟨added, ?_, ?_⟩
  · rw [runs]
    congr 2
    split
    · rename_i append
      rw [spans.stop, spans.append append]
    · rename_i other
      rw [spans.start other]
      omega
  · rw [reversed, Int.toNat_natCast, spans.stop]
    exact done

theorem get_of_drop (here : diff.drop i = line :: rest) :
    ∃ inside : i < diff.length, diff[i] = line ∧ diff.drop (i + 1) = rest := by
  have inside : i < diff.length := by
    have length := congrArg List.length here
    rw [List.length_drop, List.length_cons] at length
    omega
  rw [List.drop_eq_getElem_cons inside] at here
  exact ⟨inside, List.cons.inj here⟩

theorem applyFrom_delete (fuel : Nat) (here : diff.drop i = line :: rest) (read : readCommand line = some cmd)
    (deletes : cmd.action = .delete) (spans : Spans cmd cons1.length first last) (low : last ≤ j)
    (high : j ≤ cons1.length) (done : (cons1.take j).drop last ++ acc.reverse = tail) :
    ∃ added, applyFrom cons1 diff (fuel + 1) i j acc = applyFrom cons1 diff fuel (i + 1) first added ∧
      added.reverse = tail := by
  obtain ⟨inside, get, -⟩ := get_of_drop here
  obtain ⟨added, runs, reversed⟩ := removeLines_spans spans low high done
  have stop := spans.stop
  refine ⟨added, ?_, reversed⟩
  rw [applyFrom, if_pos inside, smartlistGet_of_lt inside, get]
  dsimp only
  rw [read]
  dsimp only
  rw [if_neg spans.coherent, if_neg (by omega), runs]
  dsimp only
  rw [if_pos deletes]

theorem findDot_found (here : diff.drop i = text ++ ['.'] :: rest) (plain : ['.'] ∉ text) (enough : text.length < fuel) :
    findDot diff fuel i = .ok (i + text.length) := by
  induction text generalizing i fuel with
  | nil =>
      obtain ⟨fuel, rfl⟩ := Nat.exists_eq_add_one.mpr enough
      obtain ⟨inside, get, -⟩ := get_of_drop here
      rw [findDot, if_pos inside, smartlistGet_of_lt inside, get]
      rfl
  | cons line text ih =>
      obtain ⟨fuel, rfl⟩ := Nat.exists_eq_add_one.mpr (Nat.zero_lt_of_lt enough)
      obtain ⟨inside, get, later⟩ := get_of_drop here
      change diff.drop (i + 1) = text ++ ['.'] :: rest at later
      rw [List.mem_cons, not_or] at plain
      have more := congrArg List.length later
      rw [List.length_drop, List.length_append, List.length_cons] at more
      rw [List.length_cons] at enough
      rw [findDot, if_pos inside, smartlistGet_of_lt inside, get]
      dsimp only
      rw [if_neg (Ne.symm plain.1), if_neg (by omega), ih later plain.2 (by omega), List.length_cons]
      congr 1
      omega

theorem applyFrom_text (fuel : Nat) (here : diff.drop i = line :: (text ++ ['.'] :: rest)) (read : readCommand line = some cmd)
    (writes : cmd.action ≠ .delete) (some : text ≠ []) (plain : ['.'] ∉ text)
    (spans : Spans cmd cons1.length first last) (low : last ≤ j) (high : j ≤ cons1.length)
    (done : (cons1.take j).drop last ++ acc.reverse = tail) :
    ∃ added, applyFrom cons1 diff (fuel + 1) i j acc = applyFrom cons1 diff fuel (i + text.length + 2) first added ∧
      added.reverse = text ++ tail := by
  obtain ⟨inside, get, later⟩ := get_of_drop here
  obtain ⟨removed, runs, reversed⟩ := removeLines_spans spans low high done
  have stop := spans.stop
  have positive := List.length_pos_iff.mpr some
  have length := congrArg List.length later
  rw [List.length_drop, List.length_append, List.length_cons] at length
  have dot : findDot diff (diff.length + 1) (i + 1) = .ok (i + 1 + text.length) := findDot_found later plain (by omega)
  obtain ⟨added, adds, newest⟩ := addNew_spec text.length (diff.length + 1) removed
    (show i + text.length < diff.length by omega) (by omega)
  refine ⟨added, ?_, ?_⟩
  · have place : ((i + 1 + text.length : Nat) : Int) - 1 = (i + text.length : Nat) := by omega
    have next : i + 1 + text.length + 1 = i + text.length + 2 := by omega
    rw [applyFrom, if_pos inside, smartlistGet_of_lt inside, get]
    dsimp only
    rw [read]
    dsimp only
    rw [if_neg spans.coherent, if_neg (by omega), runs]
    dsimp only
    rw [if_neg writes, dot]
    dsimp only
    rw [if_neg (by omega), place, adds]
    dsimp only
    rw [next]
  · rw [newest, later, List.take_left, reversed]

theorem applyFrom_end (here : diff.drop i = []) (high : j ≤ cons1.length) :
    applyFrom cons1 diff (fuel + 1) i j acc = .ok (cons1.take j ++ acc.reverse) := by
  obtain ⟨added, runs, reversed⟩ := addUnchanged_spec cons1 0 j (j + 1) acc (by omega) (by omega)
  rw [Nat.zero_add, List.drop_zero] at reversed
  rw [Nat.zero_add] at runs
  rw [applyFrom, if_neg (Nat.not_lt.mpr (List.drop_eq_nil_iff.mp here)), Int.toNat_natCast, Int.natCast_zero.symm, runs]
  dsimp only
  rw [reversed]

end Apply

/-! ## The walk back -/

section Write
variable {cons cons1 cons2 diff result acc : List Line} {bits bits1 bits2 : Bits}
variable {n n1 n2 fuel applyFuel j first last : Nat}

theorem keptOf_succ (inside : n < cons.length) :
    keptOf bits (n + 1) cons = keptOf bits n cons ++ if bits n then [] else [cons[n]] := by
  have length : (cons.take n).length = n := by
    rw [List.length_take]
    omega
  rw [keptOf, keptOf, ← List.take_append_getElem inside, kept_append, length, Nat.zero_add, kept, kept]

theorem beforeChanged_le (bits : Bits) (n : Nat) : beforeChanged bits n ≤ n := by
  induction n with
  | zero => exact Nat.le_refl _
  | succ n ih =>
      rw [beforeChanged]
      split
      · omega
      · exact Nat.le_refl _

theorem beforeChanged_lt (changed : lastChanged bits n = true) : beforeChanged bits n < n := by
  cases n with
  | zero => cases changed
  | succ n =>
      have le := beforeChanged_le bits n
      rw [lastChanged] at changed
      rw [beforeChanged, if_pos changed]
      omega

theorem keptOf_beforeChanged (inside : n ≤ cons.length) : keptOf bits (beforeChanged bits n) cons = keptOf bits n cons := by
  induction n with
  | zero => rfl
  | succ n ih =>
      rw [beforeChanged]
      split
      · rename_i changed
        rw [ih (by omega), keptOf_succ inside, if_pos changed, List.append_nil]
      · rfl

theorem unchanged_last (inside1 : n1 ≤ cons1.length) (inside2 : n2 ≤ cons2.length) (some : 0 < n1 ∨ 0 < n2)
    (unchanged1 : lastChanged bits1 n1 = false) (unchanged2 : lastChanged bits2 n2 = false)
    (same : keptOf bits1 n1 cons1 = keptOf bits2 n2 cons2) :
    ∃ m1 m2, n1 = m1 + 1 ∧ n2 = m2 + 1 ∧ keptOf bits1 m1 cons1 = keptOf bits2 m2 cons2 ∧ cons1[m1]? = cons2[m2]? := by
  have none (cons : List Line) (bits : Bits) : keptOf bits 0 cons = [] := rfl
  cases n1 with
  | zero =>
      cases n2 with
      | zero => omega
      | succ m2 =>
          rw [lastChanged] at unchanged2
          rw [none, keptOf_succ inside2, unchanged2] at same
          simp at same
  | succ m1 =>
      rw [lastChanged] at unchanged1
      cases n2 with
      | zero =>
          rw [none, keptOf_succ inside1, unchanged1] at same
          simp at same
      | succ m2 =>
          rw [lastChanged] at unchanged2
          rw [keptOf_succ inside1, keptOf_succ inside2, unchanged1, unchanged2] at same
          obtain ⟨init, line⟩ := List.append_inj' same rfl
          refine ⟨m1, m2, rfl, rfl, init, ?_⟩
          rw [List.getElem?_eq_getElem (by omega), List.getElem?_eq_getElem (by omega)]
          exact congrArg Option.some (List.cons.inj line).1

theorem written_extends (written : writeCommands cons2 bits1 bits2 fuel n1 n2 result = .ok diff) : result <+: diff := by
  induction fuel generalizing n1 n2 result with
  | zero => cases written
  | succ fuel ih =>
      rw [writeCommands] at written
      split at written
      · split at written
        · exact ih written
        · dsimp only at written
          split at written
          · exact (List.prefix_append _ _).trans (ih written)
          · split at written
            · cases written
            · exact (List.prefix_append _ _).trans (ih written)
      · cases written
        exact List.prefix_refl _

theorem drop_of_extends {command : List Line} (begins : result ++ command <+: diff) :
    ∃ rest, diff.drop result.length = command ++ rest ∧ (result ++ command).length ≤ diff.length := by
  obtain ⟨rest, rfl⟩ := begins
  refine ⟨rest, ?_, by simp⟩
  rw [List.append_assoc, List.drop_left]

theorem readCommand_range {letter : Char} {action : Action} (eof : Nat) (some : first < last) (small : last ≤ int32Max)
    (isLetter : getAction letter = .some action) (other : action ≠ .append) :
    ∃ cmd, readCommand (rangeCommand first (last - first) letter) = .some cmd ∧ cmd.action = action ∧
      Spans cmd eof first last := by
  rw [rangeCommand]
  split
  · rename_i single
    refine ⟨_, readCommand_line (by omega) isLetter, rfl, ?_⟩
    refine ⟨Nat.le_of_lt some, ?_, fun append => absurd append other, fun _ => rfl, fun h => h.1 rfl⟩
    change first + 1 = last
    omega
  · have stop : first + (last - first) = last := by omega
    rw [stop]
    refine ⟨_, readCommand_lines (by omega) small isLetter other, rfl, ?_⟩
    refine ⟨Nat.le_of_lt some, rfl, fun append => absurd append other, fun _ => rfl, fun h => ?_⟩
    have le : last ≤ first + 1 := h.2
    omega

theorem readCommand_text (eof : Nat) (le : first ≤ last) (small : last ≤ int32Max) :
    ∃ cmd, readCommand (textCommand first (last - first)) = some cmd ∧ cmd.action ≠ .delete ∧ Spans cmd eof first last := by
  rw [textCommand]
  split
  · rename_i none
    have same : first = last := by omega
    refine ⟨_, readCommand_line (by omega) (show getAction 'a' = some .append from rfl), Action.noConfusion, ?_⟩
    refine ⟨le, same, fun _ => same, fun other => absurd rfl other, fun h => h.1 rfl⟩
  · obtain ⟨cmd, read, action, spans⟩ := readCommand_range eof (show first < last by omega) small
      (show getAction 'c' = some .change from rfl) (by decide)
    exact ⟨cmd, read, by rw [action]; decide, spans⟩

theorem apply_written (small : cons1.length ≤ int32Max)
    (written : writeCommands cons2 bits1 bits2 fuel n1 n2 result = .ok diff)
    (same : keptOf bits1 n1 cons1 = keptOf bits2 n2 cons2) (inside2 : n2 ≤ cons2.length) (low : n1 ≤ j)
    (high : j ≤ cons1.length) (done : (cons1.take j).drop n1 ++ acc.reverse = cons2.drop n2)
    (enough : diff.length < applyFuel + result.length) :
    applyFrom cons1 diff applyFuel result.length j acc = .ok cons2 := by
  induction fuel generalizing n1 n2 result j acc applyFuel with
  | zero => cases written
  | succ fuel ih =>
      rw [writeCommands] at written
      split at written
      · rename_i some
        split at written
        · rename_i unchanged
          rw [Bool.and_eq_true, Bool.not_eq_true', Bool.not_eq_true'] at unchanged
          obtain ⟨m1, m2, rfl, rfl, before, line⟩ :=
            unchanged_last (by omega) inside2 some unchanged.1 unchanged.2 same
          refine ih written before (by omega) (by omega) high ?_ enough
          rw [Nat.add_sub_cancel, Nat.add_sub_cancel]
          have inTake : m1 < (cons1.take j).length := by
            rw [List.length_take]
            omega
          rw [List.getElem?_eq_getElem (by omega), List.getElem?_eq_getElem (by omega)] at line
          rw [List.drop_eq_getElem_cons inTake, List.drop_eq_getElem_cons (show m2 < cons2.length by omega),
            List.getElem_take, Option.some.inj line, List.cons_append, done]
        · rename_i changed
          dsimp only at written
          have le1 := beforeChanged_le bits1 n1
          have le2 := beforeChanged_le bits2 n2
          have next : keptOf bits1 (beforeChanged bits1 n1) cons1 = keptOf bits2 (beforeChanged bits2 n2) cons2 := by
            rw [keptOf_beforeChanged (by omega), keptOf_beforeChanged inside2, same]
          have added : cons2.drop (beforeChanged bits2 n2) =
              (cons2.take n2).drop (beforeChanged bits2 n2) ++ cons2.drop n2 := by
            conv_lhs => rw [← List.take_append_drop n2 cons2]
            rw [List.drop_append_of_le_length]
            rw [List.length_take]
            omega
          have clean (lines : List Line) (finished : lines.reverse = cons2.drop (beforeChanged bits2 n2)) :
              (cons1.take (beforeChanged bits1 n1)).drop (beforeChanged bits1 n1) ++ lines.reverse =
                cons2.drop (beforeChanged bits2 n2) := by
            rw [List.drop_of_length_le (List.length_take_le _ _), List.nil_append, finished]
          generalize new : (cons2.take n2).drop (beforeChanged bits2 n2) = lines at written added
          split at written
          · rename_i none
            have fewer : beforeChanged bits1 n1 < n1 := by
              cases here : lastChanged bits1 n1 with
              | true => exact beforeChanged_lt here
              | false =>
                  have there : lastChanged bits2 n2 = true := by
                    rw [here] at changed
                    simpa using changed
                  have less := beforeChanged_lt there
                  have length := congrArg List.length new
                  rw [none, List.length_drop, List.length_take, List.length_nil] at length
                  omega
            obtain ⟨cmd, read, action, spans⟩ := readCommand_range cons1.length fewer (by omega)
              (show getAction 'd' = .some .delete from rfl) (by decide)
            obtain ⟨rest, here, more⟩ := drop_of_extends (written_extends written)
            rw [List.length_append, List.length_singleton] at more
            obtain ⟨applyFuel, rfl⟩ := Nat.exists_eq_add_one.mpr (show 0 < applyFuel by omega)
            obtain ⟨acc', runs, reversed⟩ := applyFrom_delete applyFuel here read action spans low high done
            have finished := ih written next (by omega) (Nat.le_refl _) (by omega)
              (clean acc' (by rw [reversed, added, none, List.nil_append]))
              (show diff.length < applyFuel + (result ++ [rangeCommand _ _ 'd']).length by
                rw [List.length_append, List.length_singleton]; omega)
            rw [List.length_append, List.length_singleton] at finished
            rw [runs, finished]
          · rename_i nonempty
            split at written
            · cases written
            · rename_i plain
              obtain ⟨cmd, read, action, spans⟩ := readCommand_text cons1.length le1 (by omega)
              obtain ⟨rest, here, more⟩ := drop_of_extends (written_extends written)
              rw [List.cons_append, List.append_assoc, List.singleton_append] at here
              rw [List.length_append, List.length_cons, List.length_append, List.length_singleton] at more
              obtain ⟨applyFuel, rfl⟩ := Nat.exists_eq_add_one.mpr (show 0 < applyFuel by omega)
              obtain ⟨acc', runs, reversed⟩ := applyFrom_text applyFuel here read action nonempty plain spans low
                high done
              have finished := ih written next (by omega) (Nat.le_refl _) (by omega)
                (clean acc' (by rw [reversed, added]))
                (show diff.length < applyFuel + (result ++ textCommand _ _ :: (lines ++ [['.']])).length by
                  rw [List.length_append, List.length_cons, List.length_append, List.length_singleton]; omega)
              have place : (result ++ textCommand (beforeChanged bits1 n1) (n1 - beforeChanged bits1 n1) ::
                  (lines ++ [['.']])).length = result.length + lines.length + 2 := by
                rw [List.length_append, List.length_cons, List.length_append, List.length_singleton]
                omega
              rw [place] at finished
              rw [runs, finished]
      · rename_i none
        cases written
        obtain ⟨rfl, rfl⟩ : n1 = 0 ∧ n2 = 0 := by omega
        rw [List.drop_zero, List.drop_zero] at done
        obtain ⟨applyFuel, rfl⟩ := Nat.exists_eq_add_one.mpr (show 0 < applyFuel by omega)
        rw [applyFrom_end List.drop_length high, done]

theorem writeCommands_spec (enough : n1 + n2 < fuel) :
    writeCommands cons2 bits1 bits2 fuel n1 n2 result = .error .null ∨
      ∃ script, writeCommands cons2 bits1 bits2 fuel n1 n2 result = .ok script := by
  induction fuel generalizing n1 n2 result with
  | zero => omega
  | succ fuel ih =>
      rw [writeCommands]
      split
      · rename_i some
        split
        · exact ih (by omega)
        · rename_i changed
          have le1 := beforeChanged_le bits1 n1
          have le2 := beforeChanged_le bits2 n2
          have fewer : beforeChanged bits1 n1 + beforeChanged bits2 n2 < n1 + n2 := by
            rw [Bool.and_eq_true, Bool.not_eq_true', Bool.not_eq_true', not_and_or, Bool.not_eq_false,
              Bool.not_eq_false] at changed
            rcases changed with here | here
            · have := beforeChanged_lt here
              omega
            · have := beforeChanged_lt here
              omega
          dsimp only
          split
          · exact ih (by omega)
          · split
            · exact .inl rfl
            · exact ih (by omega)
      · exact .inr ⟨result, rfl⟩

end Write

/-! ## Generated scripts -/

def OneLineTrailer (cons : List Line) : Prop :=
  (cons.findIdx? startOfSignaturesSection.isPrefixOf).map (· + 1) = some cons.length

instance (cons : List Line) : Decidable (OneLineTrailer cons) := inferInstanceAs (Decidable (_ = _))

section Generated
variable {cons1 cons2 script : List Line} {trailer : Option Line} {d : Nat}

theorem genEdDiff_spec (base : preprocessConsensus cons1 = (cons, trailer)) :
    genEdDiff cons1 cons2 = .error .null ∨
      ∃ m1 m2 script, genEdDiff cons1 cons2 = .ok script ∧
        writeCommands cons2 m1 m2 (cons.length + cons2.length + 1) cons.length cons2.length trailer.toList = .ok script ∧
        keptOf m1 cons.length cons = keptOf m2 cons2.length cons2 := by
  have idx : Cursor.start.idx = -1 := rfl
  have before (lines : List Line) : Cursor.start.At lines 0 := ⟨Int.le_refl _, by omega, rfl⟩
  have unmarked (i : Nat) (set : (fun _ => false : Bits) i = true) : i < 0 := absurd set Bool.false_ne_true
  rw [genEdDiff, base]
  dsimp only
  rcases markChanges_spec (before cons) (before cons2) unmarked unmarked rfl
    (show _ < ((cons.length + cons2.length + 3 : Nat) : Int) by omega) with null | ⟨m1, m2, marked, same⟩
  · rw [null]
    exact .inl rfl
  · rw [marked]
    dsimp only
    rcases writeCommands_spec (Nat.lt_succ_self (cons.length + cons2.length)) with null | ⟨script, written⟩
    · exact .inl null
    · exact .inr ⟨m1, m2, script, written, written, same⟩

theorem apply_generated (fits : cons1.length ≤ int32Max) (gen : genEdDiff cons1 cons2 = .ok script) :
    applyEdDiff cons1 script 0 = if OneLineTrailer cons1 then .error .null else .ok cons2 := by
  cases found : cons1.findIdx? startOfSignaturesSection.isPrefixOf with
  | none =>
      have base : preprocessConsensus cons1 = (cons1, none) := by rw [preprocessConsensus, found]
      have clear : ¬OneLineTrailer cons1 := by
        rw [OneLineTrailer, found]
        simp
      rcases genEdDiff_spec base with null | ⟨m1, m2, same, ok, written, kept⟩
      · rw [null] at gen
        cases gen
      · rw [ok] at gen
        cases gen
        rw [if_neg clear, applyEdDiff]
        apply apply_written fits written kept (Nat.le_refl _) (Nat.le_refl _) (Nat.le_refl _) ?_ ?_
        · rw [List.take_length, List.drop_length, List.drop_length]
          rfl
        · exact Nat.lt_succ_self _
  | some d =>
      have base : preprocessConsensus cons1 = (cons1.take d, some (number (d + 1) ++ ",$d".toList)) := by
        rw [preprocessConsensus, found]
      have inside : d < cons1.length := (List.findIdx?_eq_some_iff_getElem.mp found).1
      have short : (cons1.take d).length = d := by
        rw [List.length_take]
        omega
      rcases genEdDiff_spec base with null | ⟨m1, m2, same, ok, written, kept⟩
      · rw [null] at gen
        cases gen
      · rw [ok] at gen
        cases gen
        rw [short] at written kept
        obtain ⟨rest, here, -⟩ := drop_of_extends (show [] ++ [_] <+: script from written_extends written)
        rw [List.length_nil] at here
        have read := readCommand_trailer (n := d + 1) (by omega)
        have single : OneLineTrailer cons1 ↔ d + 1 = cons1.length := by
          rw [OneLineTrailer, found, Option.map_some, Option.some.injEq]
        rw [applyEdDiff]
        by_cases last : d + 1 = cons1.length
        · obtain ⟨inside, get, -⟩ := get_of_drop here
          rw [if_pos (single.mpr last), applyFrom, if_pos inside, smartlistGet_of_lt inside, get]
          dsimp only
          rw [read]
          dsimp only
          rw [if_pos ⟨Option.some_ne_none _, Nat.le_of_eq last.symm⟩]
        · have spans : Spans ⟨d + 1, some none, .delete⟩ cons1.length d cons1.length :=
            ⟨Nat.le_of_lt inside, rfl, Action.noConfusion, fun _ => rfl, fun h => by
              have stop : cons1.length ≤ d + 1 := h.2
              omega⟩
          have base : keptOf m1 d cons1 = keptOf m1 d (cons1.take d) := by
            rw [keptOf, keptOf, List.take_take, Nat.min_self]
          have done : (cons1.take cons1.length).drop cons1.length ++ [].reverse = [] := by simp
          obtain ⟨added, runs, reversed⟩ :=
            applyFrom_delete script.length here read rfl spans (Nat.le_refl _) (Nat.le_refl _) done
          rw [if_neg fun trailer => last (single.mp trailer), runs]
          apply apply_written fits written (base.trans kept) (Nat.le_refl _) (Nat.le_refl _) (Nat.le_of_lt inside)
          · rw [reversed, List.drop_of_length_le (List.length_take_le _ _), List.drop_length]
            rfl
          · exact Nat.lt_succ_self _

/-- A script gives the target back, and `consdiff_gen_diff` finds no fault in it, unless the signatures are one line. -/
theorem diff_reproduces_iff (fits : cons1.length ≤ int32Max) (gen : genEdDiff cons1 cons2 = .ok script) :
    (applyEdDiff cons1 script 0 = .ok cons2 ∧ ∀ hash1 hash2,
      consdiffGenDiff cons1 cons2 hash1 hash2 ≠ .error .notApplied ∧
        consdiffGenDiff cons1 cons2 hash1 hash2 ≠ .error .otherTarget) ↔ ¬OneLineTrailer cons1 := by
  have applied := apply_generated fits gen
  by_cases trailer : OneLineTrailer cons1
  · rw [if_pos trailer] at applied
    refine ⟨fun both => ?_, fun other => absurd trailer other⟩
    rw [applied] at both
    cases both.1
  · rw [if_neg trailer] at applied
    refine ⟨fun _ => trailer, fun _ => ⟨applied, fun hash1 hash2 => ?_⟩⟩
    rw [consdiffGenDiff, gen]
    dsimp only
    rw [applied]
    dsimp only
    rw [if_pos rfl]
    constructor <;> simp

theorem routers_reproduced :
    let routers := ["r a AAAA".toList, "s Fast".toList, "directory-signature x".toList, "y".toList]
    let newRouters := ["r a AAAA".toList, "s Stable".toList, "r b BBBB".toList]
    ∃ script, genEdDiff routers newRouters = .ok script ∧ routers.length ≤ int32Max ∧
      applyEdDiff routers script 0 = .ok newRouters := by
  intro routers newRouters
  have gen : genEdDiff routers newRouters =
      .ok ["3,$d".toList, "2c".toList, "s Stable".toList, "r b BBBB".toList, ['.']] := by decide
  exact ⟨_, gen, by decide, ((diff_reproduces_iff (by decide) gen).mpr (by decide)).1⟩

/-- A base whose only signature has no second line. -/
theorem one_line_refused :
    genEdDiff ["directory-signature x".toList] [] = .ok ["1,$d".toList] ∧
      applyEdDiff ["directory-signature x".toList] ["1,$d".toList] 0 = .error .null ∧
      consdiffGenDiff ["directory-signature x".toList] [] [] [] = .error .notApplied := by
  decide

end Generated
end TorJet.Consdiff
