import TorJet.Base.Tally
import TorJet.Circuitstats.Times
import TorJet.Net.Address
import TorJet.Net.Addrport

/-!
# Build times in the state file

The histogram of the build times as lines of the state file, and what is read back from such lines.
-/

namespace TorJet.Circuitstats
open Base Net

def cbtBinWidth : Nat := 10

def cbtBinToMs (bin : Nat) : Nat := bin * cbtBinWidth + cbtBinWidth / 2

def intMax : Nat := 2 ^ 31 - 1

/-- What `or_state_t` has of build times. -/
structure OrState where
  totalBuildTimes : Nat
  circuitBuildAbandonedCount : Nat
  buildtimeHistogram : List Text
  deriving DecidableEq, Repr

/-- The counts are those of an `int`. -/
def OrState.Ints (state : OrState) : Prop :=
  state.totalBuildTimes ≤ intMax ∧ state.circuitBuildAbandonedCount ≤ intMax

/-! ## Saving -/

def isBinned (x : Nat) : Bool := x ≠ 0 && x ≠ cbtBuildAbandoned

def binLine (bin count : Nat) : Text := decimalDigits (cbtBinToMs bin) ++ ' ' :: decimalDigits count

def binLines (histogram : List Nat) : List Text :=
  (List.range histogram.length).filterMap fun i =>
    if histogram.getD i 0 = 0 then none else some (binLine i (histogram.getD i 0))

namespace CircuitBuildTimes

def circuitBuildTimesMax (cbt : CircuitBuildTimes) : Nat :=
  cbt.circuitBuildTimes.foldl (fun max x => if x > max ∧ x ≠ cbtBuildAbandoned then x else max) 0

def circuitBuildTimesCreateHistogram (cbt : CircuitBuildTimes) : Option (List Nat) :=
  let nbins := 1 + cbt.circuitBuildTimesMax / cbtBinWidth
  tally (· / cbtBinWidth) (cbt.circuitBuildTimes.filter isBinned) (List.replicate nbins 0)

def circuitBuildTimesUpdateState (cbt : CircuitBuildTimes) : Option OrState :=
  cbt.circuitBuildTimesCreateHistogram.map fun histogram =>
    { totalBuildTimes := cbt.totalBuildTimes
      circuitBuildAbandonedCount := cbt.circuitBuildTimes.countP (· = cbtBuildAbandoned)
      buildtimeHistogram := binLines histogram }

end CircuitBuildTimes

/-! ## Reading back -/

/-- `tor_parse_ulong` of the whole text in base 10. -/
def torParseUlong (s : Text) (min max : Nat) : Option Nat :=
  match torParseUint64 s min max with
  | (some r, []) => some r
  | _ => none

def parseBin (value : Text) : Option (Nat × Nat) :=
  match smartlistSplitString ' ' value with
  | ms :: count :: _ => do
      let ms ← torParseUlong ms 0 cbtBuildTimeMax
      let count ← torParseUlong count 0 (2 ^ 32 - 1)
      return (ms, count)
  | _ => none

/-- `loaded_times` and `loaded_cnt`; a write outside the array has no result. -/
structure Loaded where
  times : List Nat
  cnt : Nat
  deriving DecidableEq

def Loaded.add (x : Nat) : Nat → Loaded → Option Loaded
  | 0, loaded => some loaded
  | k + 1, loaded => (store loaded.times loaded.cnt x).bind fun times => Loaded.add x k ⟨times, loaded.cnt + 1⟩

/-- The loop of `circuit_build_times_parse_state` over the lines, and whether it ended with an error. -/
def loadLines (total abandoned : Nat) : List Text → Loaded → Option (Loaded × Bool)
  | [], loaded => some (loaded, false)
  | line :: rest, loaded =>
      match parseBin line with
      | none => some (loaded, true)
      | some (ms, count) =>
          -- the sum is one of 32-bit integers
          if wrap 32 (loaded.cnt + count + abandoned) > total then some (loaded, false)
          else (loaded.add ms count).bind (loadLines total abandoned rest)

namespace CircuitBuildTimes

def circuitBuildTimesShuffleAndStoreArray (cbt : CircuitBuildTimes) (draw : (n : Nat) → Fin (n + 1)) (rawTimes : List Nat)
    (numTimes : Nat) : Option CircuitBuildTimes := do
  let n := if numTimes > intMax - 1 then intMax - 1 else numTimes
  let rawTimes ← shuffle draw n rawTimes
  (rawTimes.take (min numTimes cbtNcircuitsToObserve)).foldlM circuitBuildTimesAddTime cbt

end CircuitBuildTimes

/-- What `circuit_build_times_parse_state` does with the times it has loaded. -/
def storeLoaded (cbt : CircuitBuildTimes) (draw : (n : Nat) → Fin (n + 1)) (total : Nat) (loaded : Loaded) (err : Bool) :
    Option (Bool × CircuitBuildTimes) :=
  if loaded.cnt ≠ total then some (true, cbt.circuitBuildTimesReset)
  else
    (cbt.circuitBuildTimesShuffleAndStoreArray draw loaded.times loaded.cnt).map fun cbt =>
      let totValues := (cbt.circuitBuildTimes.takeWhile isTime).length
      if cbt.totalBuildTimes ≠ totValues ∨ cbt.totalBuildTimes > cbtNcircuitsToObserve then
        (true, cbt.circuitBuildTimesReset)
      else (err, cbt)

/-- `circuit_build_times_parse_state`: whether there was an error, and the build times. -/
def circuitBuildTimesParseState (disabled : Bool) (cbtrecentcount : Option Int) (draw : (n : Nat) → Fin (n + 1))
    (state : OrState) : Option (Bool × CircuitBuildTimes) :=
  let cbt := circuitBuildTimesInit disabled cbtrecentcount
  if disabled then some (false, cbt)
  else if state.totalBuildTimes ≤ 0 ∧ state.circuitBuildAbandonedCount > 0 then some (true, cbt)
  else do
    let (loaded, err) ←
      loadLines state.totalBuildTimes state.circuitBuildAbandonedCount state.buildtimeHistogram
        ⟨List.replicate state.totalBuildTimes 0, 0⟩
    let loaded ← loaded.add cbtBuildAbandoned state.circuitBuildAbandonedCount
    storeLoaded cbt draw state.totalBuildTimes loaded err

end TorJet.Circuitstats

/-!
## Loading build times

The lines of a state file are loaded into an array of as many build times as the file says there are. The counts of the
lines are checked against that by a sum of 32 bits, and the number of circuits that were abandoned is checked with a line
only.
-/

namespace TorJet.Circuitstats
open Base Net

def binCounts : List Text → List Nat
  | [] => []
  | line :: rest =>
      match parseBin line with
      | none => []
      | some (_, count) => count :: binCounts rest

def Wraps (total abandoned loaded : Nat) (counts : List Nat) : Prop :=
  ∃ front count rest, counts = front ++ count :: rest ∧ loaded + front.sum + abandoned ≤ total ∧
    2 ^ 32 ≤ loaded + front.sum + count + abandoned ∧ loaded + front.sum + count + abandoned ≤ 2 ^ 32 + total

def Fits (state : OrState) : Prop :=
  state.totalBuildTimes = 0 ∨
    state.circuitBuildAbandonedCount ≤ state.totalBuildTimes ∧
      ¬ Wraps state.totalBuildTimes state.circuitBuildAbandonedCount 0 (binCounts state.buildtimeHistogram)

structure Loaded.Holds (loaded : Loaded) (total : Nat) (filled : List Nat) : Prop where
  size : loaded.times.length = total
  cnt : loaded.cnt = filled.length
  start : filled <+: loaded.times

section Fill
variable {loaded : Loaded} {total abandoned x k : Nat} {filled : List Nat} {lines : List Text}

theorem Loaded.Holds.bound (holds : loaded.Holds total filled) : filled.length ≤ total :=
  holds.size ▸ holds.start.length_le

theorem Loaded.Holds.next (holds : loaded.Holds total filled) (room : filled.length < total) :
    loaded.cnt < loaded.times.length ∧
      Loaded.Holds ⟨loaded.times.set loaded.cnt x, loaded.cnt + 1⟩ total (filled ++ [x]) := by
  have inside : loaded.cnt < loaded.times.length := by rwa [holds.cnt, holds.size]
  refine ⟨inside, by rw [List.length_set, holds.size], by rw [holds.cnt, List.length_append]; rfl, ?_⟩
  obtain ⟨rest, whole⟩ := holds.start
  rw [← whole, holds.cnt] at inside ⊢
  cases rest with
  | nil => exact absurd inside (by simp)
  | cons y rest =>
      refine ⟨rest, ?_⟩
      rw [List.set_append_right _ _ le_rfl, Nat.sub_self, List.set_cons_zero, List.append_assoc, List.singleton_append]

theorem Loaded.Holds.add (holds : loaded.Holds total filled) (room : filled.length + k ≤ total) :
    ∃ after, Loaded.add x k loaded = some after ∧ after.Holds total (filled ++ List.replicate k x) := by
  induction k generalizing loaded filled with
  | zero => exact ⟨loaded, rfl, by rwa [List.replicate_zero, List.append_nil]⟩
  | succ k ih =>
      obtain ⟨inside, next⟩ := @Loaded.Holds.next loaded total x filled holds (by omega)
      obtain ⟨after, added, holds'⟩ := ih next (by rw [List.length_append, List.length_singleton]; omega)
      refine ⟨after, ?_, ?_⟩
      · rw [Loaded.add, store_of_lt inside, Option.bind_some, added]
      · rwa [List.append_assoc, List.singleton_append, ← List.replicate_succ] at holds'

theorem Loaded.Holds.add_none (holds : loaded.Holds total filled) (full : total < filled.length + k) :
    Loaded.add x k loaded = none := by
  induction k generalizing loaded filled with
  | zero =>
      have bound := holds.bound
      omega
  | succ k ih =>
      by_cases room : filled.length < total
      · obtain ⟨inside, next⟩ := @Loaded.Holds.next loaded total x filled holds room
        rw [Loaded.add, store_of_lt inside, Option.bind_some]
        exact ih next (by rw [List.length_append, List.length_singleton]; omega)
      · have outside : ¬ loaded.cnt < loaded.times.length := by rwa [holds.cnt, holds.size]
        rw [Loaded.add, store, if_neg outside, Option.bind_none]

theorem wraps_cons {count cnt : Nat} {counts : List Nat} :
    Wraps total abandoned cnt (count :: counts) ↔
      (cnt + abandoned ≤ total ∧ 2 ^ 32 ≤ cnt + count + abandoned ∧ cnt + count + abandoned ≤ 2 ^ 32 + total) ∨
        Wraps total abandoned (cnt + count) counts := by
  constructor
  · rintro ⟨front, n, rest, split, place, low, high⟩
    cases front with
    | nil =>
        obtain ⟨rfl, -⟩ := List.cons.inj split
        exact .inl ⟨place, low, high⟩
    | cons m front =>
        obtain ⟨rfl, rfl⟩ := List.cons.inj split
        rw [List.sum_cons, ← Nat.add_assoc] at place low high
        exact .inr ⟨front, n, rest, rfl, place, low, high⟩
  · rintro (⟨place, low, high⟩ | ⟨front, n, rest, rfl, place, low, high⟩)
    · exact ⟨[], count, counts, rfl, place, low, high⟩
    · refine ⟨count :: front, n, rest, rfl, ?_⟩
      rw [List.sum_cons, ← Nat.add_assoc]
      exact ⟨place, low, high⟩

theorem torParseUlong_le {s : Text} {min max n : Nat} (read : torParseUlong s min max = some n) : n ≤ max := by
  unfold torParseUlong at read
  split at read
  · rename_i r parsed
    obtain rfl := Option.some.inj read
    unfold torParseUint64 at parsed
    split at parsed
    · cases parsed
    · rename_i negative m rest _
      dsimp only at parsed
      obtain ⟨value, -⟩ := Prod.mk.inj parsed
      generalize (if negative = true then (2 ^ 64 - m) % 2 ^ 64 else m) = v at value
      split at value
      · cases value
      · rename_i inside
        rw [← Option.some.inj value]
        omega
  · cases read

theorem parseBin_range {line : Text} {ms count : Nat} (read : parseBin line = some (ms, count)) :
    ms ≤ cbtBuildTimeMax ∧ count < 2 ^ 32 := by
  unfold parseBin at read
  split at read
  · obtain ⟨m, parsed, read⟩ := Option.bind_eq_some_iff.mp read
    obtain ⟨c, parsed', read⟩ := Option.bind_eq_some_iff.mp read
    obtain ⟨rfl, rfl⟩ := Prod.mk.inj (Option.some.inj read)
    exact ⟨torParseUlong_le parsed, Nat.lt_of_le_of_lt (torParseUlong_le parsed') (by decide)⟩
  · cases read

theorem loadLines_cons {line : Text} {ms count : Nat} (read : parseBin line = some (ms, count)) :
    loadLines total abandoned (line :: lines) loaded =
      if wrap 32 (loaded.cnt + count + abandoned) > total then some (loaded, false)
      else (loaded.add ms count).bind (loadLines total abandoned lines) := by
  rw [loadLines, read]

theorem binCounts_cons {line : Text} {ms count : Nat} (read : parseBin line = some (ms, count)) :
    binCounts (line :: lines) = count :: binCounts lines := by
  rw [binCounts, read]

theorem loadLines_some (ints : total ≤ intMax) (holds : loaded.Holds total filled)
    (place : filled.length + abandoned ≤ total) (fits : ¬ Wraps total abandoned filled.length (binCounts lines)) :
    ∃ after err filled', loadLines total abandoned lines loaded = some (after, err) ∧ after.Holds total filled' ∧
      filled'.length + abandoned ≤ total := by
  rw [intMax] at ints
  induction lines generalizing loaded filled with
  | nil => exact ⟨loaded, false, filled, rfl, holds, place⟩
  | cons line lines ih =>
      cases read : parseBin line with
      | none => exact ⟨loaded, true, filled, by rw [loadLines, read], holds, place⟩
      | some bin =>
          obtain ⟨ms, count⟩ := bin
          rw [binCounts_cons read, wraps_cons, not_or] at fits
          obtain ⟨here, later⟩ := fits
          have range := (parseBin_range read).2
          rw [loadLines_cons read, holds.cnt]
          by_cases many : wrap 32 (filled.length + count + abandoned) > total
          · exact ⟨loaded, false, filled, if_pos many, holds, place⟩
          · rw [if_neg many]
            have room : filled.length + count + abandoned ≤ total := by
              rw [wrap] at many
              omega
            obtain ⟨mid, added, holds'⟩ := @Loaded.Holds.add loaded total ms count filled holds (by omega)
            rw [added, Option.bind_some]
            have length : (filled ++ List.replicate count ms).length = filled.length + count := by
              rw [List.length_append, List.length_replicate]
            exact ih holds' (by rw [length]; exact room) (by rwa [length])

theorem loadLines_none (ints : total ≤ intMax) (holds : loaded.Holds total filled)
    (wraps : Wraps total abandoned filled.length (binCounts lines)) : loadLines total abandoned lines loaded = none := by
  rw [intMax] at ints
  induction lines generalizing loaded filled with
  | nil =>
      obtain ⟨front, n, rest, split, -⟩ := wraps
      exact absurd split (by simp [binCounts])
  | cons line lines ih =>
      cases read : parseBin line with
      | none =>
          obtain ⟨front, n, rest, split, -⟩ := wraps
          rw [binCounts, read] at split
          exact absurd split (by simp)
      | some bin =>
          obtain ⟨ms, count⟩ := bin
          rw [binCounts_cons read, wraps_cons] at wraps
          have range := (parseBin_range read).2
          rw [loadLines_cons read, holds.cnt]
          obtain ⟨place, low, high⟩ | later := wraps
          · have small : ¬ wrap 32 (filled.length + count + abandoned) > total := by
              rw [wrap]
              omega
            rw [if_neg small, holds.add_none (by omega), Option.bind_none]
          · obtain ⟨front, n, rest, -, place, -⟩ := id later
            have small : ¬ wrap 32 (filled.length + count + abandoned) > total := by
              rw [wrap]
              omega
            obtain ⟨mid, added, holds'⟩ := @Loaded.Holds.add loaded total ms count filled holds (by omega)
            rw [if_neg small, added, Option.bind_some]
            exact ih holds' (by rwa [List.length_append, List.length_replicate])

theorem loadLines_holds {after : Loaded} {err : Bool} (holds : loaded.Holds total filled)
    (result : loadLines total abandoned lines loaded = some (after, err)) : ∃ filled', after.Holds total filled' := by
  induction lines generalizing loaded filled with
  | nil =>
      obtain ⟨rfl, -⟩ := Prod.mk.inj (Option.some.inj result)
      exact ⟨filled, holds⟩
  | cons line lines ih =>
      cases read : parseBin line with
      | none =>
          rw [loadLines, read] at result
          obtain ⟨rfl, -⟩ := Prod.mk.inj (Option.some.inj result)
          exact ⟨filled, holds⟩
      | some bin =>
          obtain ⟨ms, count⟩ := bin
          rw [loadLines_cons read] at result
          split at result
          · obtain ⟨rfl, -⟩ := Prod.mk.inj (Option.some.inj result)
            exact ⟨filled, holds⟩
          · obtain ⟨mid, added, result⟩ := Option.bind_eq_some_iff.mp result
            by_cases room : filled.length + count ≤ total
            · obtain ⟨mid', added', holds'⟩ := @Loaded.Holds.add loaded total ms count filled holds room
              obtain rfl := Option.some.inj (added.symm.trans added')
              exact ih holds' result
            · rw [holds.add_none (Nat.not_le.mp room)] at added
              cases added

theorem binCounts_lt : ∀ count ∈ binCounts lines, count < 2 ^ 32 := by
  induction lines with
  | nil => exact fun count mem => by cases mem
  | cons line lines ih =>
      cases read : parseBin line with
      | none =>
          rw [binCounts, read]
          exact fun count mem => by cases mem
      | some bin =>
          obtain ⟨ms, count⟩ := bin
          rw [binCounts_cons read]
          exact List.forall_mem_cons.mpr ⟨(parseBin_range read).2, ih⟩

theorem not_wraps_zero : ¬ Wraps 0 abandoned 0 (binCounts lines) := by
  rintro ⟨front, count, rest, split, place, low, -⟩
  have small := @binCounts_lt lines count (split ▸ List.mem_append_right front List.mem_cons_self)
  omega

theorem Loaded.Holds.full (holds : loaded.Holds total filled) (full : filled.length = total) : loaded.times = filled :=
  (holds.start.eq_of_length (by rw [full, holds.size])).symm

end Fill

/-! ## Storing what was loaded -/

section Store
open CircuitBuildTimes
variable {cbt : CircuitBuildTimes} {draw : (n : Nat) → Fin (n + 1)} {loaded : Loaded} {total numTimes : Nat}
  {filled times : List Nat} {err disabled : Bool} {cbtrecentcount : Option Int} {state : OrState}

theorem filled_addTimes (filled : cbt.Filled) :
    ∃ after, times.foldlM circuitBuildTimesAddTime cbt = some after ∧ after.Filled := by
  induction times generalizing cbt with
  | nil => exact ⟨cbt, rfl, filled⟩
  | cons btime times ih =>
      obtain ⟨mid, added, filled', -⟩ := @Filled.addTime cbt btime filled
      obtain ⟨after, stored, filled''⟩ := ih filled'
      exact ⟨after, by rw [List.foldlM_cons, added]; exact stored, filled''⟩

theorem shuffleAndStore_eq (enough : numTimes ≤ times.length) :
    ∃ shuffled : List Nat, shuffled.Perm times ∧ cbt.circuitBuildTimesShuffleAndStoreArray draw times numTimes =
      (shuffled.take (min numTimes cbtNcircuitsToObserve)).foldlM circuitBuildTimesAddTime cbt := by
  have inside : (if numTimes > intMax - 1 then intMax - 1 else numTimes) ≤ times.length := by
    split <;> omega
  obtain ⟨shuffled, result, perm⟩ := @shuffle_perm _ draw _ _ inside
  exact ⟨shuffled, perm, by rw [circuitBuildTimesShuffleAndStoreArray, result]; rfl⟩

def Harmless (result : Bool × CircuitBuildTimes) : Prop :=
  (result.1 = true ∧ result.2.circuitBuildTimes = List.replicate cbtNcircuitsToObserve 0 ∧ result.2.buildTimesIdx = 0 ∧
      result.2.totalBuildTimes = 0) ∨
    result.2.totalBuildTimes = result.2.circuitBuildTimes.countP isTime

theorem harmless_of_filled (filled : cbt.Filled) : Harmless (err, cbt) := .inr filled.used.countP.symm

theorem storeLoaded_harmless (start : cbt.Filled) (holds : loaded.Holds total filled) :
    ∃ result, storeLoaded cbt draw total loaded err = some result ∧ Harmless result := by
  rw [storeLoaded]
  split
  · exact ⟨_, rfl, .inl ⟨rfl, rfl, rfl, rfl⟩⟩
  · rename_i full
    obtain ⟨shuffled, -, stored⟩ := @shuffleAndStore_eq cbt draw loaded.cnt loaded.times
      (by rw [holds.size, not_not.mp full])
    obtain ⟨after, added, filled'⟩ :=
      @filled_addTimes cbt (shuffled.take (min loaded.cnt cbtNcircuitsToObserve)) start
    rw [stored, added, Option.map_some]
    dsimp only
    split
    · exact ⟨_, rfl, .inl ⟨rfl, rfl, rfl, rfl⟩⟩
    · exact ⟨_, rfl, harmless_of_filled filled'⟩

theorem empty_holds : Loaded.Holds ⟨List.replicate total 0, 0⟩ total [] := ⟨List.length_replicate, rfl, List.nil_prefix⟩

theorem parseState_harmless_iff (ints : state.Ints) :
    (∃ result, circuitBuildTimesParseState disabled cbtrecentcount draw state = some result ∧ Harmless result) ↔
      disabled = true ∨ Fits state := by
  obtain ⟨totalInt, abandonedInt⟩ := ints
  have init := @init_filled disabled cbtrecentcount
  rw [circuitBuildTimesParseState]
  cases disabled with
  | true => exact iff_of_true ⟨_, rfl, harmless_of_filled init⟩ (.inl rfl)
  | false =>
      dsimp only
      rw [if_neg Bool.false_ne_true, or_iff_right Bool.false_ne_true, Fits]
      by_cases none : state.totalBuildTimes ≤ 0 ∧ state.circuitBuildAbandonedCount > 0
      · rw [if_pos none]
        exact iff_of_true ⟨_, rfl, harmless_of_filled init⟩ (.inl (by omega))
      rw [if_neg none]
      have zeros := @empty_holds state.totalBuildTimes
      by_cases wraps : Wraps state.totalBuildTimes state.circuitBuildAbandonedCount 0 (binCounts state.buildtimeHistogram)
      · refine iff_of_false ?_ ?_
        · rw [loadLines_none totalInt zeros wraps]
          rintro ⟨result, returned, -⟩
          cases returned
        · rintro (zero | ⟨-, fits⟩)
          · rw [zero] at wraps
            exact not_wraps_zero wraps
          · exact fits wraps
      · rw [and_iff_left wraps]
        by_cases place : state.circuitBuildAbandonedCount ≤ state.totalBuildTimes
        · refine iff_of_true ?_ (.inr place)
          obtain ⟨mid, err, filled, read, holds, room⟩ :=
            loadLines_some totalInt zeros (by rwa [List.length_nil, Nat.zero_add]) wraps
          obtain ⟨after, added, holds'⟩ := @Loaded.Holds.add mid _ cbtBuildAbandoned _ _ holds room
          obtain ⟨result, stored, harmless⟩ := @storeLoaded_harmless _ draw _ _ _ err init holds'
          exact ⟨result, by rw [read]; simp [added, stored], harmless⟩
        · refine iff_of_false ?_ (by omega)
          rintro ⟨result, returned, -⟩
          obtain ⟨⟨mid, err⟩, read, returned⟩ := Option.bind_eq_some_iff.mp returned
          obtain ⟨filled, holds⟩ := loadLines_holds zeros read
          obtain ⟨after, added, -⟩ := Option.bind_eq_some_iff.mp returned
          rw [holds.add_none (by omega)] at added
          cases added

end Store
end TorJet.Circuitstats
