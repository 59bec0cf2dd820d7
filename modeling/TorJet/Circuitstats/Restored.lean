import TorJet.Circuitstats.Saved
import TorJet.Net.CString
import TorJet.Net.Codec

/-!
# Build times restored

The build times that are saved come back with the same counts, each as the middle of its bin.
-/

namespace TorJet.Circuitstats
open Base Net

/-! ## The times that can be in the array -/

namespace CircuitBuildTimes
variable {cbt after : CircuitBuildTimes} {e : Event} {btime count : Nat}

structure Kept (cbt : CircuitBuildTimes) : Prop where
  filled : cbt.Filled
  range : ∀ x ∈ cbt.circuitBuildTimes, x ≤ cbtBuildTimeMax

theorem Kept.same (kept : cbt.Kept) (same : cbt.SameTimes after) : after.Kept :=
    ⟨kept.filled.same same, same.1 ▸ kept.range⟩

theorem Kept.cleared (cbt : CircuitBuildTimes) : cbt.circuitBuildTimesReset.Kept where
  filled := .reset cbt
  range := fun x mem => by
    rw [List.eq_of_mem_replicate mem]
    exact Nat.zero_le _

theorem Kept.addTime (kept : cbt.Kept) (added : cbt.circuitBuildTimesAddTime btime = some after) : after.Kept := by
  obtain ⟨after', added', filled, -⟩ := @Filled.addTime cbt btime kept.filled
  obtain rfl := Option.some.inj (added.symm.trans added')
  refine ⟨filled, ?_⟩
  rw [circuitBuildTimesAddTime] at added
  split at added
  · rw [← Option.some.inj added]
    exact kept.range
  · rename_i range
    obtain ⟨times, stored, rfl⟩ := Option.map_eq_some_iff.mp added
    rw [kept.filled.used.store] at stored
    rw [← Option.some.inj stored]
    intro x mem
    obtain mem | rfl := List.mem_or_eq_of_mem_set mem
    · exact kept.range x mem
    · omega

theorem Kept.ring {result : Option NetworkLiveness}
    (action : (result.map fun liveness => { cbt with liveness := liveness }) = some after) (kept : cbt.Kept) :
    after.Kept := by
  obtain ⟨liveness, -, rfl⟩ := Option.map_eq_some_iff.mp action
  exact kept.same ⟨rfl, rfl, rfl⟩

theorem Kept.networkTimeout {didOnehop : Bool} (kept : cbt.Kept)
    (action : cbt.circuitBuildTimesNetworkTimeout didOnehop = some after) : after.Kept := by
  rw [circuitBuildTimesNetworkTimeout] at action
  split at action
  · exact Kept.ring action (kept.same (SameTimes.scale ⟨rfl, rfl, rfl⟩))
  · rw [← Option.some.inj action]
    exact kept.same (SameTimes.scale ⟨rfl, rfl, rfl⟩)

theorem Kept.checkChanged {cbtmaxtimeouts : Option Int} (kept : cbt.Kept)
    (action : cbt.circuitBuildTimesNetworkCheckChanged cbtmaxtimeouts = some after) : after.Kept := by
  obtain ⟨timeouts, -, rfl⟩ := Option.map_eq_some_iff.mp action
  split
  · exact kept
  · exact (Kept.cleared cbt).same ⟨rfl, rfl, rfl⟩

theorem Kept.networkClose {startTime : Int} (kept : cbt.Kept) : (cbt.circuitBuildTimesNetworkClose startTime).Kept := by
  unfold circuitBuildTimesNetworkClose
  simp only [scale_liveness]
  split
  · exact kept.same (SameTimes.scale ⟨rfl, rfl, rfl⟩)
  · exact kept.same (SameTimes.scale ⟨rfl, rfl, rfl⟩)

theorem Kept.step (kept : cbt.Kept) (action : cbt.step e = some after) : after.Kept := by
  cases e with
  | newConsensusParams disabled cbtrecentcount =>
      rw [CircuitBuildTimes.step, circuitBuildTimesNewConsensusParams] at action
      split at action
      · dsimp only at action
        split at action
        · split at action
          · exact Kept.ring action kept
          · rw [← Option.some.inj action]
            exact kept
        · rw [← Option.some.inj action]
          exact kept.same ⟨rfl, rfl, rfl⟩
      · rw [← Option.some.inj action]
        exact kept.same ⟨rfl, rfl, rfl⟩
  | circSuccess => exact Kept.ring action (kept.same (SameTimes.scale ⟨rfl, rfl, rfl⟩))
  | countTimeout disabled didOnehop cbtmaxtimeouts =>
      rw [CircuitBuildTimes.step, circuitBuildTimesCountTimeout] at action
      split at action
      · rw [← Option.some.inj action]
        exact kept
      · obtain ⟨mid, timedOut, action⟩ := Option.bind_eq_some_iff.mp action
        exact (kept.networkTimeout timedOut).checkChanged action
  | addTime btime => exact kept.addTime action
  | countClose disabled startTime =>
      rw [CircuitBuildTimes.step, circuitBuildTimesCountClose] at action
      split at action
      · rw [← Option.some.inj action]
        exact kept
      · dsimp only at action
        split at action
        · rw [← Option.some.inj action]
          exact kept.networkClose
        · exact kept.networkClose.addTime action
  | networkIsLive now =>
      rw [← Option.some.inj action]
      exact kept.same ⟨rfl, rfl, rfl⟩
  | reset =>
      rw [← Option.some.inj action]
      exact Kept.cleared cbt

theorem kept_of_reach {disabled : Bool} {cbtrecentcount : Option Int}
    (reach : history.Reach (fun _ _ => True) (circuitBuildTimesInit disabled cbtrecentcount) cbt) : cbt.Kept := by
  refine reach.invariant ⟨init_filled, (Kept.cleared (circuitBuildTimesInit disabled cbtrecentcount)).range⟩ ?_
  intro s e t kept _ action
  exact kept.step action

end CircuitBuildTimes

/-! ## The histogram -/

section Histogram
open CircuitBuildTimes
variable {cbt : CircuitBuildTimes} {times : List Nat} {x bin m n : Nat} {lines : List Text} {α : Type*}

def binCount (times : List Nat) (bin : Nat) : Nat := (times.filter isBinned).countP fun x => x / cbtBinWidth = bin

def binsUsed (cbt : CircuitBuildTimes) : Nat := 1 + cbt.circuitBuildTimesMax / cbtBinWidth

theorem foldl_max_le (max : Nat) :
    max ≤ times.foldl (fun max x => if x > max ∧ x ≠ cbtBuildAbandoned then x else max) max ∧
      ∀ x ∈ times, x ≠ cbtBuildAbandoned →
        x ≤ times.foldl (fun max x => if x > max ∧ x ≠ cbtBuildAbandoned then x else max) max := by
  induction times generalizing max with
  | nil => exact ⟨le_rfl, fun x mem => by cases mem⟩
  | cons y times ih =>
      rw [List.foldl_cons]
      obtain ⟨above, others⟩ := ih (if y > max ∧ y ≠ cbtBuildAbandoned then y else max)
      have start : max ≤ if y > max ∧ y ≠ cbtBuildAbandoned then y else max := by
        split <;> omega
      refine ⟨start.trans above, List.forall_mem_cons.mpr ⟨fun real => le_trans ?_ above, others⟩⟩
      split <;> omega

theorem inside_bins : ∀ x ∈ cbt.circuitBuildTimes.filter isBinned, x / cbtBinWidth < binsUsed cbt := by
  intro x mem
  obtain ⟨mem, binned⟩ := List.mem_filter.mp mem
  simp only [isBinned, Bool.and_eq_true, decide_eq_true_eq] at binned
  have le : x ≤ cbt.circuitBuildTimesMax := (foldl_max_le 0).2 x mem binned.2
  rw [binsUsed, Nat.add_comm]
  exact Nat.lt_succ_of_le (Nat.div_le_div_right le)

theorem createHistogram_eq :
    cbt.circuitBuildTimesCreateHistogram = some ((List.range (binsUsed cbt)).map (binCount cbt.circuitBuildTimes)) :=
  tally_replicate inside_bins

theorem binCount_eq_zero (large : binsUsed cbt ≤ bin) : binCount cbt.circuitBuildTimes bin = 0 := by
  rw [binCount, List.countP_eq_zero]
  intro x mem same
  have inside := inside_bins x mem
  rw [of_decide_eq_true same] at inside
  omega

def lineOf (times : List Nat) (bin : Nat) : Option Text :=
  if binCount times bin = 0 then none else some (binLine bin (binCount times bin))

theorem binLines_eq (times : List Nat) (n : Nat) :
    binLines ((List.range n).map (binCount times)) = (List.range n).filterMap (lineOf times) := by
  rw [binLines, List.length_map, List.length_range]
  refine List.filterMap_congr fun i mem => ?_
  have there : ((List.range n).map (binCount times)).getD i 0 = binCount times i := by
    rw [List.getD_eq_getElem?_getD, List.getElem?_map, List.getElem?_range (List.mem_range.mp mem)]
    rfl
  rw [there, lineOf]

theorem filterMap_range {f : Nat → Option α} (le : m ≤ n) (empty : ∀ i, m ≤ i → f i = none) :
    (List.range n).filterMap f = (List.range m).filterMap f := by
  induction n with
  | zero => rw [Nat.le_zero.mp le]
  | succ n ih =>
      by_cases same : m = n + 1
      · rw [same]
      · rw [List.range_succ, List.filterMap_append, ih (by omega), List.filterMap_cons_none (empty n (by omega)),
          List.filterMap_nil, List.append_nil]

theorem updateState_eq :
    cbt.circuitBuildTimesUpdateState = some
      { totalBuildTimes := cbt.totalBuildTimes
        circuitBuildAbandonedCount := cbt.circuitBuildTimes.countP (· = cbtBuildAbandoned)
        buildtimeHistogram := (List.range (binsUsed cbt)).filterMap (lineOf cbt.circuitBuildTimes) } := by
  rw [circuitBuildTimesUpdateState, createHistogram_eq, Option.map_some, binLines_eq]

theorem lines_congr {after : CircuitBuildTimes}
    (same : ∀ bin, binCount after.circuitBuildTimes bin = binCount cbt.circuitBuildTimes bin) :
    (List.range (binsUsed after)).filterMap (lineOf after.circuitBuildTimes) =
      (List.range (binsUsed cbt)).filterMap (lineOf cbt.circuitBuildTimes) := by
  have lines : lineOf after.circuitBuildTimes = lineOf cbt.circuitBuildTimes := by
    funext bin
    rw [lineOf, lineOf, same]
  have empty : ∀ i, binsUsed cbt ≤ i → lineOf cbt.circuitBuildTimes i = none := fun i large => by
    rw [lineOf, if_pos (binCount_eq_zero large)]
  have empty' : ∀ i, binsUsed after ≤ i → lineOf after.circuitBuildTimes i = none := fun i large => by
    rw [lineOf, if_pos (binCount_eq_zero large)]
  rw [lines] at empty' ⊢
  rw [← filterMap_range (Nat.le_max_left (binsUsed after) (binsUsed cbt)) empty',
    filterMap_range (Nat.le_max_right (binsUsed after) (binsUsed cbt)) empty]

theorem countP_isTime :
    cbt.circuitBuildTimes.countP isTime =
      ((List.range (binsUsed cbt)).map (binCount cbt.circuitBuildTimes)).sum +
        cbt.circuitBuildTimes.countP (· = cbtBuildAbandoned) := by
  have sum : ((List.range (binsUsed cbt)).map (binCount cbt.circuitBuildTimes)).sum =
    cbt.circuitBuildTimes.countP isBinned :=
    (sum_countP inside_bins).trans (List.countP_eq_length_filter ..).symm
  rw [sum]
  induction cbt.circuitBuildTimes with
  | nil => rfl
  | cons x times ih =>
      rw [List.countP_cons, List.countP_cons, List.countP_cons, ih]
      have one : (if isTime x = true then 1 else 0) =
          (if isBinned x = true then 1 else 0) + if decide (x = cbtBuildAbandoned) = true then 1 else 0 := by
        by_cases abandoned : x = cbtBuildAbandoned
        · subst abandoned
          rfl
        · by_cases zero : x = 0
          · subst zero
            rfl
          · simp [isTime, isBinned, abandoned, zero]
      omega

end Histogram

/-! ## The lines of the bins -/

section Lines
variable {loaded : Loaded} {total abandoned bin count n : Nat} {filled times indices : List Nat} {s : Text}

theorem isItem_decimalDigits (n : Nat) : IsItem ' ' (decimalDigits n) :=
  isItem_of_black rfl Nat.toDigits_ne_nil fun c mem => digit_notSpace (torIsdigit_decimalDigits n c mem)

theorem splitString_numbers (a b : Nat) :
    smartlistSplitString ' ' (decimalDigits a ++ ' ' :: decimalDigits b) = [decimalDigits a, decimalDigits b] := by
  have joined : decimalDigits a ++ ' ' :: decimalDigits b = [' '].intercalate [decimalDigits a, decimalDigits b] := by
    rw [List.intercalate_cons_cons, List.intercalate_singleton, List.append_assoc]
    rfl
  rw [joined, smartlistSplitString_join]
  intro t mem
  rw [List.mem_cons, List.mem_singleton] at mem
  obtain rfl | rfl := mem <;> exact isItem_decimalDigits _

theorem torParseUlong_decimalDigits {max : Nat} (le : n ≤ max) (small : max < 2 ^ 64) :
    torParseUlong (decimalDigits n) 0 max = some n := by
  have read : strtolDecimal (decimalDigits n) = some (false, n, []) :=
    strtolDecimal_iff.mpr ⟨decimalDigits n, (List.append_nil _).symm,
      ⟨[], [], decimalDigits n, rfl, by simp, .inl rfl, Nat.toDigits_ne_nil, torIsdigit_decimalDigits n,
        decimal_toDigits n⟩, by simp⟩
  rw [torParseUlong, torParseUint64, read]
  dsimp only
  rw [if_neg Bool.false_ne_true, if_neg (by omega)]

theorem parseBin_binLine (ms : cbtBinToMs bin ≤ cbtBuildTimeMax) (small : count < 2 ^ 32) :
    parseBin (binLine bin count) = some (cbtBinToMs bin, count) := by
  rw [parseBin, binLine, splitString_numbers]
  dsimp only
  rw [torParseUlong_decimalDigits ms (by decide), torParseUlong_decimalDigits (Nat.le_sub_one_of_lt small) (by decide)]
  rfl

theorem loadLines_bins (ints : total ≤ intMax) (holds : loaded.Holds total filled)
    (ms : ∀ bin ∈ indices, binCount times bin ≠ 0 → cbtBinToMs bin ≤ cbtBuildTimeMax)
    (place : filled.length + (indices.map (binCount times)).sum + abandoned ≤ total) :
    ∃ after, loadLines total abandoned (indices.filterMap (lineOf times)) loaded = some (after, false) ∧
      after.Holds total (filled ++ indices.flatMap fun bin => List.replicate (binCount times bin) (cbtBinToMs bin)) := by
  rw [intMax] at ints
  induction indices generalizing loaded filled with
  | nil => exact ⟨loaded, rfl, by rwa [List.flatMap_nil, List.append_nil]⟩
  | cons bin indices ih =>
      obtain ⟨first, others⟩ := List.forall_mem_cons.mp ms
      rw [List.map_cons, List.sum_cons] at place
      rw [List.flatMap_cons]
      by_cases empty : binCount times bin = 0
      · have skipped : lineOf times bin = none := if_pos empty
        rw [List.filterMap_cons_none skipped, empty, List.replicate_zero, List.nil_append]
        exact ih holds others (by omega)
      · have line : lineOf times bin = some (binLine bin (binCount times bin)) := if_neg empty
        have small : ¬ wrap 32 (filled.length + binCount times bin + abandoned) > total := by
          rw [wrap]
          omega
        obtain ⟨mid, added, holds'⟩ :=
          @Loaded.Holds.add loaded total (cbtBinToMs bin) (binCount times bin) filled holds (by omega)
        obtain ⟨after, read, holds''⟩ := ih holds' others (by
          rw [List.length_append, List.length_replicate]
          omega)
        refine ⟨after, ?_, by rwa [List.append_assoc] at holds''⟩
        rw [List.filterMap_cons_some line, loadLines_cons (parseBin_binLine (first empty) (by omega)), holds.cnt,
          if_neg small, added, Option.bind_some, read]

end Lines

/-! ## What is restored -/

section Restored
open CircuitBuildTimes
variable {cbt : CircuitBuildTimes} {done times filled shuffled : List Nat} {p : Nat → Bool}

structure StartsWith (cbt : CircuitBuildTimes) (done : List Nat) : Prop where
  cells : cbt.circuitBuildTimes = done ++ List.replicate (cbtNcircuitsToObserve - done.length) 0
  idx : cbt.buildTimesIdx = done.length % cbtNcircuitsToObserve
  total : cbt.totalBuildTimes = done.length

theorem StartsWith.addTime {x : Nat} (starts : StartsWith cbt done) (room : done.length < cbtNcircuitsToObserve)
    (positive : 0 < x)
    (range : x ≤ cbtBuildTimeMax) :
      ∃ after, cbt.circuitBuildTimesAddTime x = some after ∧ StartsWith after (done ++ [x]) := by
  have idx : cbt.buildTimesIdx = done.length := by rw [starts.idx, Nat.mod_eq_of_lt room]
  have cells : cbt.circuitBuildTimes = done ++ 0 :: List.replicate (cbtNcircuitsToObserve - (done.length + 1)) 0 := by
    rw [starts.cells, ← List.replicate_succ]
    congr 2
    omega
  have inside : cbt.buildTimesIdx < cbt.circuitBuildTimes.length := by
    rw [idx, cells, List.length_append, List.length_cons]
    omega
  have length : (done ++ [x]).length = done.length + 1 := List.length_append
  rw [circuitBuildTimesAddTime, if_neg (by omega), store_of_lt inside]
  refine ⟨_, rfl, ?_, ?_, ?_⟩
  · dsimp only
    rw [cells, idx, List.set_append_right _ _ le_rfl, Nat.sub_self, List.set_cons_zero, length, List.append_assoc,
      List.singleton_append]
  · dsimp only
    rw [idx, length]
  · dsimp only
    rw [starts.total, if_pos room, length]

theorem StartsWith.addTimes (starts : StartsWith cbt done) (room : done.length + times.length ≤ cbtNcircuitsToObserve)
    (range : ∀ x ∈ times, 0 < x ∧ x ≤ cbtBuildTimeMax) :
    ∃ after, times.foldlM circuitBuildTimesAddTime cbt = some after ∧ StartsWith after (done ++ times) := by
  induction times generalizing cbt done with
  | nil => exact ⟨cbt, rfl, by rwa [List.append_nil]⟩
  | cons x times ih =>
      obtain ⟨⟨positive, le⟩, others⟩ := List.forall_mem_cons.mp range
      rw [List.length_cons] at room
      obtain ⟨mid, added, starts'⟩ := starts.addTime (by omega) positive le
      obtain ⟨after, stored, starts''⟩ := ih starts' (by rw [List.length_append, List.length_singleton]; omega) others
      refine ⟨after, ?_, by rwa [List.append_assoc] at starts''⟩
      rw [List.foldlM_cons, added]
      exact stored

theorem StartsWith.countP (starts : StartsWith cbt done)
    (zero : p 0 = false) : cbt.circuitBuildTimes.countP p = done.countP p := by
  rw [starts.cells, List.countP_append, List.countP_replicate, zero, if_neg Bool.false_ne_true, Nat.add_zero]

theorem starts_init {disabled : Bool} {cbtrecentcount : Option Int} : StartsWith
    (circuitBuildTimesInit disabled cbtrecentcount) [] :=
  ⟨rfl, rfl, rfl⟩

theorem storeLoaded_full {draw : (n : Nat) → Fin (n + 1)} {loaded : Loaded} {total : Nat} (starts : StartsWith cbt [])
    (filledCbt : cbt.Filled) (holds : loaded.Holds total filled) (full : filled.length = total)
    (few : total ≤ cbtNcircuitsToObserve) (range : ∀ x ∈ filled, 0 < x ∧ x ≤ cbtBuildTimeMax) :
    ∃ after shuffled, storeLoaded cbt draw total loaded false = some (false, after) ∧ StartsWith after shuffled ∧
      shuffled.Perm filled := by
  have cnt : loaded.cnt = total := by rw [holds.cnt, full]
  obtain ⟨shuffled, perm, stored⟩ := @shuffleAndStore_eq cbt draw loaded.cnt loaded.times (by rw [holds.size, cnt])
  rw [holds.full full] at perm
  have all : shuffled.take (min loaded.cnt cbtNcircuitsToObserve) = shuffled := by
    refine List.take_of_length_le ?_
    rw [perm.length_eq, cnt, Nat.min_eq_left few, full]
  rw [all] at stored
  have range' : ∀ x ∈ shuffled, 0 < x ∧ x ≤ cbtBuildTimeMax := fun x mem => range x (perm.mem_iff.mp mem)
  obtain ⟨after, added, starts'⟩ := starts.addTimes (by rw [List.length_nil, Nat.zero_add, perm.length_eq]; omega) range'
  obtain ⟨after', added', filled'⟩ := @filled_addTimes cbt shuffled filledCbt
  obtain rfl := Option.some.inj (added.symm.trans added')
  refine ⟨after, shuffled, ?_, starts', perm⟩
  have bound := filled'.used.bound
  rw [filled'.size] at bound
  rw [storeLoaded, if_neg (not_not.mpr cnt), stored, added, Option.map_some]
  dsimp only
  rw [filled'.used.takeWhile, if_neg (by omega)]

theorem binToMs_bin (bin : Nat) : cbtBinToMs bin / cbtBinWidth = bin ∧ isBinned (cbtBinToMs bin) = true := by
  have width : cbtBinToMs bin = bin * 10 + 5 := rfl
  refine ⟨?_, ?_⟩
  · rw [width, cbtBinWidth]
    omega
  · rw [isBinned, cbtBuildAbandoned, width, Bool.and_eq_true, decide_eq_true_eq, decide_eq_true_eq]
    omega

theorem binToMs_le (kept : cbt.Kept) {bin : Nat}
    (some : binCount cbt.circuitBuildTimes bin ≠ 0) : cbtBinToMs bin ≤ cbtBuildTimeMax := by
  obtain ⟨x, mem, same⟩ := List.countP_pos_iff.mp (Nat.pos_of_ne_zero some)
  have le := kept.range x (List.mem_of_mem_filter mem)
  have bin_eq : x / cbtBinWidth = bin := of_decide_eq_true same
  rw [cbtBuildTimeMax] at le ⊢
  rw [cbtBinWidth] at bin_eq
  rw [cbtBinToMs, cbtBinWidth]
  omega

theorem binCount_eq (times : List Nat) (bin : Nat) :
    binCount times bin = times.countP fun x => decide (x / cbtBinWidth = bin) && isBinned x := by
  rw [binCount, List.countP_filter]

def expanded (cbt : CircuitBuildTimes) : List Nat :=
  spread cbtBinToMs (binCount cbt.circuitBuildTimes) (binsUsed cbt) ++
    List.replicate (cbt.circuitBuildTimes.countP (· = cbtBuildAbandoned)) cbtBuildAbandoned

theorem expanded_length (kept : cbt.Kept) : (expanded cbt).length = cbt.totalBuildTimes := by
  rw [expanded, List.length_append, length_spread, List.length_replicate, ← countP_isTime, kept.filled.used.countP]

theorem expanded_range (kept : cbt.Kept) : ∀ x ∈ expanded cbt, 0 < x ∧ x ≤ cbtBuildTimeMax := by
  intro x mem
  obtain mem | mem := List.mem_append.mp mem
  · obtain ⟨bin, -, some, rfl⟩ := mem_spread.mp mem
    refine ⟨?_, binToMs_le kept some⟩
    rw [cbtBinToMs, cbtBinWidth]
    omega
  · rw [List.eq_of_mem_replicate mem]
    decide

theorem expanded_abandoned : (expanded cbt).countP (· = cbtBuildAbandoned) = cbt.circuitBuildTimes.countP
    (· = cbtBuildAbandoned) := by
  have none : (spread cbtBinToMs (binCount cbt.circuitBuildTimes) (binsUsed cbt)).countP (· = cbtBuildAbandoned) = 0 := by
    rw [List.countP_eq_zero]
    intro x mem same
    obtain ⟨bin, -, -, rfl⟩ := mem_spread.mp mem
    have binned := (binToMs_bin bin).2
    rw [of_decide_eq_true same] at binned
    exact absurd binned (by decide)
  rw [expanded, List.countP_append, none, List.countP_replicate, if_pos (decide_eq_true rfl), Nat.zero_add]

theorem expanded_bin (bin : Nat) : binCount (expanded cbt) bin = binCount cbt.circuitBuildTimes bin := by
  have unmarked : (decide (cbtBuildAbandoned / cbtBinWidth = bin) && isBinned cbtBuildAbandoned) = false := by
    have notBinned : isBinned cbtBuildAbandoned = false := by decide
    rw [notBinned, Bool.and_false]
  rw [binCount_eq, expanded, List.countP_append, List.countP_replicate, unmarked, if_neg Bool.false_ne_true, Nat.add_zero]
  refine countP_spread bin (fun other => ?_) binCount_eq_zero
  obtain ⟨middle, binned⟩ := binToMs_bin other
  rw [middle, binned, Bool.and_true]
  exact decide_eq_decide.mpr eq_comm

theorem parseState_updateState (kept : cbt.Kept) (cbtrecentcount : Option Int) (draw : (n : Nat) → Fin (n + 1)) :
    ∃ state after, cbt.circuitBuildTimesUpdateState = some state ∧
      circuitBuildTimesParseState false cbtrecentcount draw state = some (false, after) ∧
        after.totalBuildTimes = cbt.totalBuildTimes ∧
          after.circuitBuildTimes.countP (· = cbtBuildAbandoned) = cbt.circuitBuildTimes.countP (· = cbtBuildAbandoned) ∧
            (∀ bin, binCount after.circuitBuildTimes bin = binCount cbt.circuitBuildTimes bin) ∧
              after.circuitBuildTimesUpdateState = some state := by
  have few : cbt.totalBuildTimes ≤ cbtNcircuitsToObserve := kept.filled.size ▸ kept.filled.used.bound
  have ints : cbt.totalBuildTimes ≤ intMax := few.trans (by decide)
  have parts := expanded_length kept
  rw [expanded, List.length_append, List.length_replicate, length_spread] at parts
  obtain ⟨mid, read, holds⟩ := loadLines_bins ints empty_holds (fun bin _ => binToMs_le kept)
    (by rw [List.length_nil, Nat.zero_add]; exact parts.le)
  rw [List.nil_append] at holds
  obtain ⟨loaded, added, holds'⟩ := @Loaded.Holds.add mid _ cbtBuildAbandoned
    (cbt.circuitBuildTimes.countP (· = cbtBuildAbandoned)) _ holds (by
      rw [← parts, ← length_spread]
      exact le_rfl)
  obtain ⟨after, shuffled, stored, starts, perm⟩ := @storeLoaded_full _ (expanded cbt) draw loaded _
    (@starts_init false cbtrecentcount) init_filled holds' (expanded_length kept) few (expanded_range kept)
  have count {p : Nat → Bool} (zero : p 0 = false) : after.circuitBuildTimes.countP p = (expanded cbt).countP p :=
    (starts.countP zero).trans (perm.countP_eq p)
  have total : after.totalBuildTimes = cbt.totalBuildTimes := by rw [starts.total, perm.length_eq, expanded_length kept]
  have abandoned : after.circuitBuildTimes.countP (· = cbtBuildAbandoned) =
      cbt.circuitBuildTimes.countP (· = cbtBuildAbandoned) := (count (by decide)).trans expanded_abandoned
  have bins (bin : Nat) : binCount after.circuitBuildTimes bin = binCount cbt.circuitBuildTimes bin := by
    have zero : (decide (0 / cbtBinWidth = bin) && isBinned 0) = false := by
      have notBinned : isBinned 0 = false := by decide
      rw [notBinned, Bool.and_false]
    rw [binCount_eq, count zero, ← binCount_eq, expanded_bin]
  refine ⟨_, after, updateState_eq, ?_, total, abandoned, bins, ?_⟩
  · have consistent : ¬ (cbt.totalBuildTimes ≤ 0 ∧ cbt.circuitBuildTimes.countP (· = cbtBuildAbandoned) > 0) := by
      omega
    rw [circuitBuildTimesParseState]
    dsimp only
    rw [if_neg Bool.false_ne_true, if_neg consistent, read, Option.bind_eq_bind, Option.bind_some]
    dsimp only
    rw [added, Option.bind_eq_bind, Option.bind_some, stored]
  · rw [updateState_eq, total, abandoned, lines_congr bins]

end Restored

/-- A state file does no harm exactly where its counts fit, and the build times that are saved are restored. -/
theorem state_restored (disabled : Bool) (cbtrecentcount : Option Int) (draw : (n : Nat) → Fin (n + 1)) (state : OrState)
    (ints : state.Ints) :
    ((∃ result, circuitBuildTimesParseState disabled cbtrecentcount draw state = some result ∧ Harmless result) ↔
        disabled = true ∨ Fits state) ∧
      ∀ (wasDisabled : Bool) (cbtrecentcount : Option Int) (cbt : CircuitBuildTimes),
        history.Reach (fun _ _ => True) (circuitBuildTimesInit wasDisabled cbtrecentcount) cbt →
          ∀ (cbtrecentcount : Option Int) (draw : (n : Nat) → Fin (n + 1)), ∃ state after,
            cbt.circuitBuildTimesUpdateState = some state ∧
              circuitBuildTimesParseState false cbtrecentcount draw state = some (false, after) ∧
                after.totalBuildTimes = cbt.totalBuildTimes ∧
                  after.circuitBuildTimes.countP (· = cbtBuildAbandoned) =
                    cbt.circuitBuildTimes.countP (· = cbtBuildAbandoned) ∧
                    (∀ bin, binCount after.circuitBuildTimes bin = binCount cbt.circuitBuildTimes bin) ∧
                      after.circuitBuildTimesUpdateState = some state :=
  ⟨parseState_harmless_iff ints, fun _ _ _ reach => parseState_updateState (CircuitBuildTimes.kept_of_reach reach)⟩

theorem state_restored_two :
    ∃ result, circuitBuildTimesParseState false none (fun _ => 0) ⟨2, 1, ["15 1".toList]⟩ = some result ∧
      Harmless result := by
  have ints : OrState.Ints ⟨2, 1, ["15 1".toList]⟩ := ⟨by decide, by decide⟩
  refine (state_restored false none (fun _ => 0) ⟨2, 1, ["15 1".toList]⟩ ints).1.mpr (.inr (.inr ⟨by decide, ?_⟩))
  rintro ⟨front, count, rest, split, -, low, -⟩
  change 2 ^ 32 ≤ 0 + front.sum + count + 1 at low
  have sum := congrArg List.sum split
  have counts : binCounts ["15 1".toList] = [1] := by decide
  rw [List.sum_append, List.sum_cons] at sum
  change (binCounts ["15 1".toList]).sum = _ at sum
  rw [counts, List.sum_singleton] at sum
  omega

/-- A count of 2 ^ 32 - 1 makes the sum with five abandoned circuits a four. -/
theorem parseState_outside :
    ¬ ∀ (disabled : Bool) (cbtrecentcount : Option Int) (draw : (n : Nat) → Fin (n + 1)) (state : OrState), state.Ints →
      ∃ result, circuitBuildTimesParseState disabled cbtrecentcount draw state = some result ∧ Harmless result := by
  intro harmless
  have ints : OrState.Ints ⟨10, 5, ["15 4294967295".toList]⟩ := ⟨by decide, by decide⟩
  have result := harmless false none (fun _ => 0) ⟨10, 5, ["15 4294967295".toList]⟩ ints
  rw [parseState_harmless_iff ints] at result
  obtain on | zero | ⟨-, fits⟩ := result
  · cases on
  · cases zero
  · have counts : binCounts ["15 4294967295".toList] = [4294967295] := by decide
    exact fits ⟨[], 4294967295, [], counts, by decide, by decide, by decide⟩

end TorJet.Circuitstats
