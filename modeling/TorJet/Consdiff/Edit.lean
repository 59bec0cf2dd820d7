import TorJet.Consdiff.Generate

/-!
# Applying a diff edits the lines

Whenever a list is returned, it is what the script's commands make of the base, one after another.
-/

namespace TorJet.Consdiff
open Base

section Loops
variable {cons1 diff cons2 : List Line} {fuel i j stop : Nat}

theorem smartlistGet_of_lt (range : i < cons1.length) : smartlistGet cons1 i = .ok cons1[i] := by
  rw [smartlistGet, if_neg (by omega), Int.toNat_natCast, List.getElem?_eq_getElem range]

theorem addUnchanged_spec (cons1 : List Line) (stop : Nat) (k fuel : Nat) (cons2 : List Line) (inside : stop + k ≤ cons1.length) (enough : k < fuel) :
    ∃ added, addUnchanged cons1 stop fuel (stop + k : Nat) cons2 = .ok ((stop : Int), added) ∧
      added.reverse = (cons1.take (stop + k)).drop stop ++ cons2.reverse := by
  induction k generalizing fuel cons2 with
  | zero =>
      obtain ⟨fuel, rfl⟩ := Nat.exists_eq_add_one.mpr enough
      refine ⟨cons2, by rw [addUnchanged, if_neg (by omega), Nat.add_zero], ?_⟩
      rw [Nat.add_zero, List.drop_of_length_le (List.length_take_le _ _), List.nil_append]
  | succ k ih =>
      obtain ⟨fuel, rfl⟩ := Nat.exists_eq_add_one.mpr (Nat.zero_lt_of_lt enough)
      have range : stop + k < cons1.length := by omega
      have index : ((stop + (k + 1) : Nat) : Int) - 1 = (stop + k : Nat) := by omega
      obtain ⟨added, runs, reversed⟩ := ih fuel (cons2 ++ [cons1[stop + k]]) (by omega) (by omega)
      refine ⟨added, ?_, ?_⟩
      · rw [addUnchanged, if_pos (by omega), index, smartlistGet_of_lt range]
        exact runs
      · have long : stop ≤ (cons1.take (stop + k)).length := by
          rw [List.length_take]
          omega
        rw [reversed, List.reverse_concat, ← Nat.add_assoc, ← List.take_append_getElem range, List.drop_append_of_le_length long,
          List.append_assoc, List.singleton_append]

theorem ignoreRemoved_spec (start k fuel : Nat) (enough : k < fuel) :
    ignoreRemoved start fuel (start + k : Nat) = .ok ((start : Int) - 1) := by
  induction k generalizing fuel with
  | zero =>
      obtain ⟨fuel, rfl⟩ := Nat.exists_eq_add_one.mpr enough
      rw [ignoreRemoved, if_neg (by omega), Nat.add_zero]
  | succ k ih =>
      obtain ⟨fuel, rfl⟩ := Nat.exists_eq_add_one.mpr (Nat.zero_lt_of_lt enough)
      have index : ((start + (k + 1) : Nat) : Int) - 1 = (start + k : Nat) := by omega
      rw [ignoreRemoved, if_pos (by omega), index]
      exact ih fuel (by omega)

theorem findDot_spec (fuel : Nat) (le : i ≤ diff.length) (enough : diff.length < fuel + i) :
    findDot diff fuel i = .error .null ∨ ∃ dot, findDot diff fuel i = .ok dot ∧
      (dot = i ∧ i = diff.length ∨ ∃ after, diff.drop i = (diff.drop i).takeWhile (· ≠ ['.']) ++ ['.'] :: after ∧
        dot = i + ((diff.drop i).takeWhile (· ≠ ['.'])).length ∧ after = diff.drop (dot + 1)) := by
  induction fuel generalizing i with
  | zero => omega
  | succ fuel ih =>
      rw [findDot]
      by_cases range : i < diff.length
      · have here : diff.drop i = diff[i] :: diff.drop (i + 1) := List.drop_eq_getElem_cons range
        rw [if_pos range, smartlistGet_of_lt range]
        dsimp only
        by_cases dot : diff[i] = ['.']
        · rw [if_pos dot]
          refine .inr ⟨i, rfl, .inr ⟨diff.drop (i + 1), ?_, ?_, rfl⟩⟩
          · rw [here, dot, List.takeWhile_cons_of_neg (by simp), List.nil_append]
          · rw [here, dot, List.takeWhile_cons_of_neg (by simp)]
            rfl
        · rw [if_neg dot]
          by_cases last : i + 1 = diff.length
          · rw [if_pos last]
            exact .inl rfl
          · rw [if_neg last]
            rcases ih (i := i + 1) (by omega) (by omega) with none | ⟨p, found, ⟨-, atEnd⟩ | ⟨after, split, place, rest⟩⟩
            · exact .inl none
            · exact absurd atEnd last
            · refine .inr ⟨p, found, .inr ⟨after, ?_, ?_, rest⟩⟩
              · rw [here, List.takeWhile_cons_of_pos (by simpa using dot), List.cons_append, ← split]
              · rw [here, List.takeWhile_cons_of_pos (by simpa using dot), List.length_cons, place]
                omega
      · rw [if_neg range]
        exact .inr ⟨i, rfl, .inl ⟨rfl, by omega⟩⟩

theorem addNew_spec (k fuel : Nat) (cons2 : List Line) (inside : i + k < diff.length) (enough : k < fuel) :
    ∃ added, addNew diff i fuel (i + k : Nat) cons2 = .ok added ∧
      added.reverse = (diff.drop (i + 1)).take k ++ cons2.reverse := by
  induction k generalizing fuel cons2 with
  | zero =>
      obtain ⟨fuel, rfl⟩ := Nat.exists_eq_add_one.mpr enough
      exact ⟨cons2, by rw [addNew, if_neg (by omega)], by simp⟩
  | succ k ih =>
      obtain ⟨fuel, rfl⟩ := Nat.exists_eq_add_one.mpr (Nat.zero_lt_of_lt enough)
      have index : ((i + (k + 1) : Nat) : Int) - 1 = (i + k : Nat) := by omega
      obtain ⟨added, runs, reversed⟩ := ih fuel (cons2 ++ [diff[i + (k + 1)]]) (by omega) (by omega)
      refine ⟨added, ?_, ?_⟩
      · rw [addNew, if_pos (by omega), smartlistGet_of_lt inside, index]
        exact runs
      · have get : (diff.drop (i + 1))[k]? = some diff[i + (k + 1)] := by
          rw [List.getElem?_drop, List.getElem?_eq_getElem (by omega)]
          congr 2
          omega
        rw [reversed, List.reverse_concat, List.take_add_one, get]
        simp

end Loops

/-! ## Commands -/

def InOrder (eof : Nat) (cmds : List Command) : Prop :=
  cmds.Pairwise fun earlier later => later.line.stop eof ≤ earlier.line.start

section Commands
variable {cons1 diff cons2 tail text : List Line} {line : Line} {cmd : EdCommand} {fuel i eof : Nat} {j : Int}

theorem append_has_no_range (read : readCommand line = some cmd) (append : cmd.action = .append) : cmd.range = none := by
  unfold readCommand at read
  split at read
  · cases read
  · split at read
    · cases read
    · split at read
      · cases read
      · split at read
        · cases read
        · split at read
          · cases read
          · rename_i allowed
            cases read
            simp only at append
            subst append
            simp at allowed
            tauto
      · cases read

theorem EdCommand.start_le_stop (coherent : ¬(cmd.range ≠ none ∧ cmd.stop eof ≤ cmd.start)) : cmd.start ≤ cmd.stop eof := by
  by_cases range : cmd.range = none
  · rw [EdCommand.stop, range]
  · have := not_and.mp coherent range
    omega

theorem removeLines_spec (cons2 : List Line) (inside : j ≤ cons1.length) (coherent : cmd.start ≤ cmd.stop cons1.length)
    (sorted : (cmd.stop cons1.length : Int) ≤ j) :
    ∃ added, removeLines cons1 cmd j cons2 =
        .ok (if cmd.action = .append then (cmd.stop cons1.length : Int) else (cmd.start : Int) - 1, added) ∧
      added.reverse = (cons1.take j.toNat).drop (cmd.stop cons1.length) ++ cons2.reverse := by
  have index : j = (cmd.stop cons1.length + (j.toNat - cmd.stop cons1.length) : Nat) := by omega
  obtain ⟨added, runs, reversed⟩ := addUnchanged_spec cons1 (cmd.stop cons1.length)
    (j.toNat - cmd.stop cons1.length) (j.toNat + 1) cons2 (by omega) (by omega)
  rw [← index] at runs
  have place : cmd.stop cons1.length + (j.toNat - cmd.stop cons1.length) = j.toNat := by omega
  rw [place] at reversed
  refine ⟨added, ?_, reversed⟩
  rw [removeLines, runs]
  dsimp only
  split
  · rfl
  · have skip := ignoreRemoved_spec cmd.start (cmd.stop cons1.length - cmd.start) (cmd.stop cons1.length + 1) (by omega)
    rw [Nat.add_sub_cancel' coherent] at skip
    rw [Int.toNat_natCast, skip]

theorem edit_take (read : readCommand line = some cmd) (inside : j ≤ cons1.length) (coherent : cmd.start ≤ cmd.stop eof)
    (sorted : (cmd.stop eof : Int) ≤ j) (none : cmd.action = .delete → text = []) :
    Command.edit ⟨cmd, text⟩ eof (cons1.take j.toNat ++ tail) =
      cons1.take (if cmd.action = .append then (cmd.stop eof : Int) else (cmd.start : Int) - 1).toNat ++
        (text ++ ((cons1.take j.toNat).drop (cmd.stop eof) ++ tail)) := by
  have length : (cons1.take j.toNat).length = j.toNat := by
    rw [List.length_take]
    omega
  have before (n : Nat) (le : n ≤ j.toNat) : (cons1.take j.toNat ++ tail).take n = cons1.take n := by
    rw [List.take_append_of_le_length (by omega), List.take_take, Nat.min_eq_left le]
  have after : (cons1.take j.toNat ++ tail).drop (cmd.stop eof) = (cons1.take j.toNat).drop (cmd.stop eof) ++ tail := by
    rw [List.drop_append_of_le_length (by omega)]
  have start : ((cmd.start : Int) - 1).toNat = cmd.start - 1 := by omega
  unfold Command.edit
  cases action : cmd.action with
  | append =>
      have same : cmd.start = cmd.stop eof := by
        rw [EdCommand.stop, append_has_no_range read action]
      dsimp only
      rw [if_pos rfl, Int.toNat_natCast, before cmd.start (by omega), same, after, List.append_assoc]
  | change =>
      dsimp only
      rw [if_neg (by decide), start, before (cmd.start - 1) (by omega), after, List.append_assoc]
  | delete =>
      dsimp only
      rw [if_neg (by decide), start, before (cmd.start - 1) (by omega), after, none action, List.nil_append]

theorem applyFrom_spec (fuel : Nat) : ∀ (i : Nat) (j : Int) (cons2 : List Line), diff.length < fuel + i → 0 < fuel → -1 ≤ j →
    j ≤ cons1.length →
    applyFrom cons1 diff fuel i j cons2 = .error .null ∨
      ∃ cmds lines, applyFrom cons1 diff fuel i j cons2 = .ok lines ∧
        (∀ n, diff.length ≤ n + i → readScript n (diff.drop i) = some cmds) ∧
        lines = edWith cons1.length (cons1.take j.toNat ++ cons2.reverse) cmds ∧
        InOrder cons1.length cmds ∧ ∀ cmd ∈ cmds, (cmd.line.stop cons1.length : Int) ≤ j := by
  induction fuel with
  | zero =>
      intro i j cons2 _ some
      omega
  | succ fuel ih =>
      intro i j cons2 enough _ low inside
      rw [applyFrom]
      by_cases range : i < diff.length
      · have here : diff.drop i = diff[i] :: diff.drop (i + 1) := List.drop_eq_getElem_cons range
        rw [if_pos range, smartlistGet_of_lt range]
        dsimp only
        cases read : readCommand diff[i] with
        | none => exact .inl rfl
        | some cmd =>
            dsimp only
            by_cases coherent : cmd.range ≠ none ∧ cmd.stop cons1.length ≤ cmd.start
            · rw [if_pos coherent]
              exact .inl rfl
            · rw [if_neg coherent]
              by_cases sorted : j < cmd.stop cons1.length
              · rw [if_pos sorted]
                exact .inl rfl
              · rw [Int.not_lt] at sorted
                have ordered := EdCommand.start_le_stop coherent
                obtain ⟨added, runs, reversed⟩ := removeLines_spec cons2 inside ordered sorted
                rw [if_neg (Int.not_lt.mpr sorted), runs]
                dsimp only
                generalize next : (if cmd.action = .append then (cmd.stop cons1.length : Int) else (cmd.start : Int) - 1) = j' at *
                have below : -1 ≤ j' ∧ j' ≤ cmd.start ∧ j' ≤ cons1.length := by
                  rw [← next]
                  split
                  · rename_i append
                    have same : cmd.start = cmd.stop cons1.length := by
                      rw [EdCommand.stop, append_has_no_range read append]
                    omega
                  · omega
                have edited (text : List Line) := (@edit_take _ cons2.reverse text _ _ _ _) read inside ordered sorted
                rw [next, ← reversed] at edited
                -- the rest of the script, from a state in which this command has been done
                have goOn (text : List Line) (i' : Nat) (added' : List Line) (deleted : cmd.action = .delete → text = [])
                    (reversed' : added'.reverse = text ++ added.reverse) (later : i < i') (short : i' ≤ diff.length)
                    (script : ∀ n cmds, diff.length ≤ n + i → (∀ m, diff.length ≤ m + i' → readScript m (diff.drop i') = some cmds) →
                      readScript n (diff.drop i) = some (⟨cmd, text⟩ :: cmds)) :
                    applyFrom cons1 diff fuel i' j' added' = .error .null ∨
                      ∃ cmds lines, applyFrom cons1 diff fuel i' j' added' = .ok lines ∧
                        (∀ n, diff.length ≤ n + i → readScript n (diff.drop i) = some cmds) ∧
                        lines = edWith cons1.length (cons1.take j.toNat ++ cons2.reverse) cmds ∧
                        InOrder cons1.length cmds ∧ ∀ cmd ∈ cmds, (cmd.line.stop cons1.length : Int) ≤ j := by
                  rcases ih i' j' added' (by omega) (by omega) below.1 below.2.2 with none | ⟨cmds, lines, runs', reads, eq, order, bound⟩
                  · exact .inl none
                  · refine .inr ⟨⟨cmd, text⟩ :: cmds, lines, runs', fun n big => script n cmds big reads, ?_, ?_, ?_⟩
                    · rw [eq, reversed']
                      exact congrArg (edWith cons1.length · cmds) (edited text deleted).symm
                    · exact List.pairwise_cons.mpr ⟨fun later mem => Int.ofNat_le.mp ((bound later mem).trans below.2.1), order⟩
                    · intro other mem
                      rcases List.mem_cons.mp mem with rfl | rest
                      · exact sorted
                      · have := bound other rest
                        omega
                by_cases deleted : cmd.action = .delete
                · rw [if_pos deleted]
                  refine goOn [] (i + 1) added (fun _ => rfl) rfl (Nat.lt_succ_self i) range fun n cmds big reads => ?_
                  obtain ⟨n, rfl⟩ := Nat.exists_eq_add_one.mpr (by omega : 0 < n)
                  rw [here, readScript, read]
                  dsimp only
                  rw [if_pos deleted, reads n (by omega)]
                  rfl
                · rw [if_neg deleted]
                  rcases (@findDot_spec diff (i + 1)) (diff.length + 1) range (by omega) with
                    none | ⟨dot, found, ⟨same, -⟩ | ⟨after, split, place, rest⟩⟩
                  · rw [none]
                    exact .inl rfl
                  · rw [found]
                    dsimp only
                    rw [if_pos same]
                    exact .inl rfl
                  · rw [found]
                    dsimp only
                    generalize words : (diff.drop (i + 1)).takeWhile (fun line => decide (line ≠ ['.'])) = text at split place
                    have length := congrArg List.length split
                    rw [List.length_drop, List.length_append, List.length_cons] at length
                    by_cases nothing : dot = i + 1
                    · rw [if_pos nothing]
                      exact .inl rfl
                    · have index : (dot : Int) - 1 = (i + text.length : Nat) := by omega
                      obtain ⟨added', runs', reversed'⟩ := (@addNew_spec diff i) text.length (diff.length + 1) added
                        (by omega) (by omega)
                      rw [split, List.take_left] at reversed'
                      rw [if_neg nothing, index, runs']
                      refine goOn text (dot + 1) added' (fun del => absurd del deleted) reversed' (by omega) (by omega)
                        fun n cmds big reads => ?_
                      obtain ⟨n, rfl⟩ := Nat.exists_eq_add_one.mpr (by omega : 0 < n)
                      have some : text ≠ [] := by
                        rintro rfl
                        exact nothing place
                      rw [here, readScript, read]
                      dsimp only
                      rw [if_neg deleted, words, split, List.drop_left]
                      dsimp only
                      rw [if_neg some, rest, reads n (by omega)]
                      rfl
      · rw [if_neg range]
        have done : diff.drop i = [] := List.drop_eq_nil_iff.mpr (Nat.not_lt.mp range)
        have lines : ∃ added j', addUnchanged cons1 0 (j.toNat + 1) j cons2 = .ok (j', added) ∧
            added.reverse = cons1.take j.toNat ++ cons2.reverse := by
          by_cases gone : j < 0
          · refine ⟨cons2, j, by rw [addUnchanged, if_neg (by omega)], ?_⟩
            rw [Int.toNat_of_nonpos (by omega), List.take_zero, List.nil_append]
          · have whole := addUnchanged_spec cons1 0 j.toNat (j.toNat + 1) cons2 (by omega) (by omega)
            rw [Nat.zero_add, Int.toNat_of_nonneg (by omega)] at whole
            obtain ⟨added, runs, reversed⟩ := whole
            exact ⟨added, 0, runs, reversed⟩
        obtain ⟨added, j', runs, reversed⟩ := lines
        rw [runs]
        refine .inr ⟨[], added.reverse, rfl, fun n _ => by rw [done, readScript], reversed, List.Pairwise.nil,
          fun cmd mem => absurd mem List.not_mem_nil⟩

end Commands

/-- The diff is applied within bounds and in the end, and what is returned is what its commands make of the base, in
order and with `$` as the last line of the base. -/
theorem applyEdDiff_edits (cons1 diff : List Line) (start : Nat) :
    applyEdDiff cons1 diff start ≠ .error .outOfBounds ∧ applyEdDiff cons1 diff start ≠ .error .outOfFuel ∧
      ∀ cons2, applyEdDiff cons1 diff start = .ok cons2 →
        ∃ cmds, readScript diff.length (diff.drop start) = some cmds ∧ cons2 = edWith cons1.length cons1 cmds ∧
          InOrder cons1.length cmds := by
  have spec := (@applyFrom_spec cons1 diff) (diff.length + 1) start cons1.length [] (by omega) (by omega)
    (by omega) (Int.le_refl _)
  rw [Int.toNat_natCast, List.take_length, List.reverse_nil, List.append_nil] at spec
  rcases spec with none | ⟨cmds, lines, runs, reads, eq, order, -⟩
  · rw [applyEdDiff, none]
    refine ⟨by decide, by decide, fun cons2 ok => by cases ok⟩
  · rw [applyEdDiff, runs]
    refine ⟨by simp, by simp, fun cons2 ok => ?_⟩
    cases ok
    exact ⟨cmds, reads diff.length (Nat.le_add_right _ _), eq, order⟩

/-- A range to the end after lines were added there leaves these lines. -/
theorem added_lines_survive : ¬ ∀ (cons1 diff : List Line) (start : Nat) (cons2 : List Line),
    applyEdDiff cons1 diff start = .ok cons2 →
      ∃ cmds, readScript diff.length (diff.drop start) = some cmds ∧ cons2 = ed cons1 cmds := by
  intro all
  obtain ⟨cmds, reads, eq⟩ := all ["a".toList, "b".toList]
    ["2a".toList, "c".toList, ".".toList, "1,$d".toList] 0 ["c".toList] (by decide)
  have script : readScript 4 ["2a".toList, "c".toList, ".".toList, "1,$d".toList] =
      some [⟨⟨2, none, .append⟩, ["c".toList]⟩, ⟨⟨1, some none, .delete⟩, []⟩] := by
    decide
  cases script.symm.trans reads
  revert eq
  decide

end TorJet.Consdiff
