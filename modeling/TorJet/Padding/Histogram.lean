import Mathlib.Data.List.Sort
import TorJet.Base.Bits
import TorJet.Base.Scan

/-!
# Padding histograms

The bins of a padding state, the lookup of the bin of a delay, and the ways of taking a token from a bin near it.
-/

namespace TorJet.Padding
open Base

def circpadMaxHistogramLen : Nat := 100

def circpadDelayInfinite : Nat := 2 ^ 32 - 1

inductive Removal
  | none
  | higher
  | lower
  | closest
  | closestUsec
  | exact
  deriving DecidableEq, Repr

/-- `circpad_state_t`, as far as its histogram goes; of the arrays, the elements that are in use. -/
structure State where
  histogramLen : Nat
  histogram : List Nat
  histogramEdges : List Nat
  histogramTotalTokens : Nat
  lengthIncludesNonpadding : Bool
  useRttEstimate : Bool
  tokenRemoval : Removal
  small : histogramLen ≤ circpadMaxHistogramLen
  tokens_length : histogram.length = histogramLen
  edges_length : histogramEdges.length = histogramLen
  edges_fit : ∀ edge ∈ histogramEdges, edge < 2 ^ 32
  deriving DecidableEq

def State.infinityBin (state : State) : Nat := state.histogramLen - 1

/-- The loop of `padding_machine_state_is_valid` from bin `b`: the number of tokens, if the edges increase. -/
def countTokens (b prevBinEdge tokensCount : Nat) : List (Nat × Nat) → Option Nat
  | [] => some tokensCount
  | (edge, tokens) :: rest =>
      if prevBinEdge ≥ edge ∧ b > 0 then none
      else countTokens (b + 1) edge (wrap 32 (tokensCount + tokens)) rest

def paddingMachineStateIsValid (state : State) : Bool :=
  if state.histogramLen = 0 then true
  else if state.histogramLen < 2 then false
  else countTokens 0 0 0 (state.histogramEdges.zip state.histogram) = some state.histogramTotalTokens

/-- What a `circpad_machine_runtime_t` has while it is in a state with a mutable histogram. -/
structure Runtime where
  state : State
  rttEstimateUsec : Nat
  histogram : List Nat
  same_length : histogram.length = state.histogramLen
  deriving DecidableEq

namespace Runtime

def tokens (mi : Runtime) (bin : Nat) : Nat := mi.histogram.getD bin 0

def rttAddUsec (mi : Runtime) : Nat := if mi.state.useRttEstimate then mi.rttEstimateUsec else 0

def circpadHistogramBinToUsec (mi : Runtime) (bin : Nat) : Nat :=
  if bin > mi.state.infinityBin then circpadDelayInfinite
  else wrap 32 (mi.state.histogramEdges.getD bin 0 + mi.rttAddUsec)

def histogramGetBinUpperBound (mi : Runtime) (bin : Nat) : Nat := wsub 32 (mi.circpadHistogramBinToUsec (bin + 1)) 1

def circpadGetHistogramBinMidpoint (mi : Runtime) (bin : Nat) : Nat :=
  let leftBound := mi.circpadHistogramBinToUsec bin
  let rightBound := mi.histogramGetBinUpperBound bin
  wrap 32 (leftBound + wsub 32 rightBound leftBound / 2)

def circpadHistogramUsecToBin (mi : Runtime) (usec : Nat) : Nat :=
  (scanUp (fun bin => usec ≤ wrap 32 (mi.histogramGetBinUpperBound bin + mi.rttAddUsec)) mi.state.infinityBin 0).getD
    (mi.state.infinityBin - 1)

def circpadMachineFirstHigherIndex (mi : Runtime) (targetBinUsec : Nat) : Nat :=
  let bin := mi.circpadHistogramUsecToBin targetBinUsec
  (scanUp (fun bin => mi.tokens bin ≠ 0 && mi.histogramGetBinUpperBound bin ≥ targetBinUsec)
    (mi.state.infinityBin - bin) bin).getD mi.state.histogramLen

/-- `circpad_machine_first_lower_index`, which is -1 for none. -/
def circpadMachineFirstLowerIndex (mi : Runtime) (targetBinUsec : Nat) : Int :=
  let bin := mi.circpadHistogramUsecToBin targetBinUsec
  match scanDown (fun bin => mi.tokens bin ≠ 0 && mi.circpadHistogramBinToUsec bin ≤ targetBinUsec) (bin + 1) with
  | some bin => bin
  | none => -1

def take (mi : Runtime) (bin : Nat) : Runtime :=
  if mi.tokens bin = 0 then mi
  else
    { mi with
      histogram := mi.histogram.set bin (mi.tokens bin - 1)
      same_length := by rw [List.length_set, mi.same_length] }

def circpadMachineRemoveHigherToken (mi : Runtime) (targetBinUsec : Nat) : Runtime :=
  let bin := mi.circpadMachineFirstHigherIndex targetBinUsec
  if bin < mi.state.infinityBin then mi.take bin else mi

def circpadMachineRemoveLowerToken (mi : Runtime) (targetBinUsec : Nat) : Runtime :=
  let bin := mi.circpadMachineFirstLowerIndex targetBinUsec
  if bin ≥ 0 ∧ bin < mi.state.infinityBin then mi.take bin.toNat else mi

def circpadMachineRemoveClosestToken (mi : Runtime) (targetBinUsec : Nat) (useUsec : Bool) : Runtime :=
  let lower := mi.circpadMachineFirstLowerIndex targetBinUsec
  let higher := mi.circpadMachineFirstHigherIndex targetBinUsec
  let current := mi.circpadHistogramUsecToBin targetBinUsec
  if lower > current ∨ higher < current then mi
  else if higher = mi.state.histogramLen ∧ lower = -1 then mi
  else if higher = mi.state.histogramLen then mi.take lower.toNat
  else if lower = -1 then mi.take higher
  else if useUsec then
    let lowerUsec := mi.circpadGetHistogramBinMidpoint lower.toNat
    let higherUsec := mi.circpadGetHistogramBinMidpoint higher
    if targetBinUsec < lowerUsec then mi.take lower.toNat
    else if targetBinUsec > higherUsec then mi.take higher
    else if wsub 32 targetBinUsec lowerUsec > wsub 32 higherUsec targetBinUsec then mi.take higher
    else mi.take lower.toNat
  else if current - lower > higher - current then mi.take higher
  else mi.take lower.toNat

def circpadMachineRemoveExact (mi : Runtime) (targetBinUsec : Nat) : Runtime :=
  mi.take (mi.circpadHistogramUsecToBin targetBinUsec)

/-- The strategies of `circpad_machine_remove_token`. -/
def removeToken (mi : Runtime) (strategy : Removal) (targetBinUsec : Nat) : Runtime :=
  match strategy with
  | .closestUsec => mi.circpadMachineRemoveClosestToken targetBinUsec true
  | .closest => mi.circpadMachineRemoveClosestToken targetBinUsec false
  | .lower => mi.circpadMachineRemoveLowerToken targetBinUsec
  | .higher => mi.circpadMachineRemoveHigherToken targetBinUsec
  | .exact => mi.circpadMachineRemoveExact targetBinUsec
  | .none => mi

end Runtime
end TorJet.Padding

/-!
## The bin of a delay

A valid histogram divides the delays into bins, one after the other. The lookup adds the RTT estimate to bounds
that have it already, and finds the bin of a delay only where this makes no difference.
-/

namespace TorJet.Padding
open Base

theorem countTokens_increasing {b prev count total : Nat} {bins : List (Nat × Nat)} (later : b > 0)
    (counted : countTokens b prev count bins = some total) : (prev :: bins.map Prod.fst).IsChain (· < ·) := by
  induction bins generalizing b prev count with
  | nil => exact .singleton prev
  | cons bin rest ih =>
      obtain ⟨edge, tokens⟩ := bin
      rw [countTokens] at counted
      split at counted
      · cases counted
      · rename_i increases
        rw [List.map_cons, List.isChain_cons_cons]
        exact ⟨by omega, ih (Nat.succ_pos b) counted⟩

theorem State.edges_increase {state : State} (valid : paddingMachineStateIsValid state = true)
    (used : state.histogramLen ≠ 0) : state.histogramEdges.Pairwise (· < ·) := by
  rw [paddingMachineStateIsValid, if_neg used] at valid
  split at valid
  · cases valid
  · have same : state.histogramEdges.length ≤ state.histogram.length := by
      rw [state.edges_length, state.tokens_length]
    have counted := of_decide_eq_true valid
    rw [← List.isChain_iff_pairwise, ← List.map_fst_zip same]
    cases bins : state.histogramEdges.zip state.histogram with
    | nil => exact .nil
    | cons bin rest =>
        obtain ⟨edge, tokens⟩ := bin
        rw [bins, countTokens, if_neg (by omega)] at counted
        exact countTokens_increasing Nat.one_pos counted

namespace Runtime

structure Ordered (mi : Runtime) : Prop where
  some_bin : 0 < mi.state.infinityBin
  ends : ∀ b < mi.state.infinityBin, mi.histogramGetBinUpperBound b + 1 = mi.circpadHistogramBinToUsec (b + 1)
  increases : ∀ b c, b < c → c ≤ mi.state.infinityBin →
    mi.circpadHistogramBinToUsec b < mi.circpadHistogramBinToUsec c
  fits : ∀ b ≤ mi.state.infinityBin, mi.circpadHistogramBinToUsec b < 2 ^ 32

def BinOf (mi : Runtime) (usec b : Nat) : Prop :=
  b < mi.state.infinityBin ∧
    (mi.circpadHistogramBinToUsec b ≤ usec ∧ usec ≤ mi.histogramGetBinUpperBound b ∨
      b = 0 ∧ (∀ c < mi.state.infinityBin, usec < mi.circpadHistogramBinToUsec c) ∨
      b + 1 = mi.state.infinityBin ∧ ∀ c < mi.state.infinityBin, mi.histogramGetBinUpperBound c < usec)

def ShiftHarmless (mi : Runtime) (usec : Nat) : Prop :=
  ∀ b, b + 1 < mi.state.infinityBin → b = 0 ∨ mi.circpadHistogramBinToUsec b ≤ usec →
    (usec ≤ wrap 32 (mi.histogramGetBinUpperBound b + mi.rttAddUsec) ↔ usec ≤ mi.histogramGetBinUpperBound b)

variable {mi : Runtime} {usec b c : Nat}

theorem binToUsec_eq (fits : ∀ edge ∈ mi.state.histogramEdges, edge + mi.rttAddUsec < 2 ^ 32)
    (inside : b < mi.state.histogramEdges.length) :
    mi.circpadHistogramBinToUsec b = mi.state.histogramEdges[b] + mi.rttAddUsec := by
  have bound : ¬ b > mi.state.infinityBin := by
    rw [mi.state.edges_length] at inside
    rw [State.infinityBin]
    omega
  rw [circpadHistogramBinToUsec, if_neg bound, List.getD_eq_getElem?_getD, List.getElem?_eq_getElem inside,
    Option.getD_some]
  exact wrap_of_lt (fits _ (List.getElem_mem inside))

theorem ordered (valid : paddingMachineStateIsValid mi.state = true) (used : mi.state.histogramLen ≠ 0)
    (fits : ∀ edge ∈ mi.state.histogramEdges, edge + mi.rttAddUsec < 2 ^ 32) : mi.Ordered := by
  have two : 2 ≤ mi.state.histogramLen := by
    by_contra less
    rw [paddingMachineStateIsValid, if_neg used, if_pos (by omega)] at valid
    cases valid
  have length := mi.state.edges_length
  have inside : ∀ b ≤ mi.state.infinityBin, b < mi.state.histogramEdges.length := by
    intro b le
    rw [State.infinityBin] at le
    omega
  have small : ∀ b ≤ mi.state.infinityBin, mi.circpadHistogramBinToUsec b < 2 ^ 32 := by
    intro b le
    rw [binToUsec_eq fits (inside b le)]
    exact fits _ (List.getElem_mem _)
  have increases : ∀ b c, b < c → c ≤ mi.state.infinityBin →
      mi.circpadHistogramBinToUsec b < mi.circpadHistogramBinToUsec c := by
    intro b c lt le
    rw [binToUsec_eq fits (inside b (by omega)), binToUsec_eq fits (inside c le)]
    have edges := List.pairwise_iff_getElem.mp (State.edges_increase valid used) b c (inside b (by omega)) (inside c le) lt
    omega
  refine ⟨by rw [State.infinityBin]; omega, ?_, increases, small⟩
  intro b lt
  have positive := increases b (b + 1) (Nat.lt_succ_self b) lt
  have bound := small (b + 1) lt
  rw [histogramGetBinUpperBound, wsub_of_le (by omega) bound]
  omega

section Ordered
variable (o : mi.Ordered)
include o

theorem upper_lt_lower (lt : b < c) (inside : c ≤ mi.state.infinityBin) :
    mi.histogramGetBinUpperBound b < mi.circpadHistogramBinToUsec c := by
  have ends := o.ends b (by omega)
  rcases Nat.eq_or_lt_of_le (Nat.succ_le_of_lt lt) with rfl | more
  · rw [Nat.succ_eq_add_one]
    omega
  · have increases := o.increases (b + 1) c more inside
    omega

theorem lower_le_upper (inside : b < mi.state.infinityBin) :
    mi.circpadHistogramBinToUsec b ≤ mi.histogramGetBinUpperBound b := by
  have ends := o.ends b inside
  have increases := o.increases b (b + 1) (Nat.lt_succ_self b) inside
  omega

theorem binOf_iff : mi.BinOf usec b ↔ b < mi.state.infinityBin ∧ (∀ c < b, mi.histogramGetBinUpperBound c < usec) ∧
    (b + 1 = mi.state.infinityBin ∨ usec ≤ mi.histogramGetBinUpperBound b) := by
  constructor
  · rintro ⟨inside, ⟨lower, upper⟩ | ⟨rfl, below⟩ | ⟨last, above⟩⟩
    · refine ⟨inside, ?_, .inr upper⟩
      intro c lt
      have before := upper_lt_lower o lt inside.le
      omega
    · refine ⟨inside, by omega, .inr ?_⟩
      have under := below 0 inside
      have order := lower_le_upper o inside
      omega
    · exact ⟨inside, fun c lt => above c (by omega), .inl last⟩
  · rintro ⟨inside, before, rest⟩
    refine ⟨inside, ?_⟩
    by_cases lower : mi.circpadHistogramBinToUsec b ≤ usec
    · by_cases upper : usec ≤ mi.histogramGetBinUpperBound b
      · exact .inl ⟨lower, upper⟩
      · have last := rest.resolve_right upper
        refine .inr (.inr ⟨last, ?_⟩)
        intro c lt
        rcases Nat.eq_or_lt_of_le (show c ≤ b by omega) with rfl | less
        · omega
        · exact before c less
    · have first : b = 0 := by
        by_contra positive
        have previous := before (b - 1) (by omega)
        have ends := o.ends (b - 1) (by omega)
        rw [Nat.sub_add_cancel (by omega)] at ends
        omega
      subst first
      refine .inr (.inl ⟨rfl, ?_⟩)
      intro c inside'
      rcases Nat.eq_zero_or_pos c with rfl | positive
      · omega
      · have increases := o.increases 0 c positive inside'.le
        omega

theorem BinOf.unique (one : mi.BinOf usec b) (other : mi.BinOf usec c) : b = c := by
  obtain ⟨inside, before, rest⟩ := (binOf_iff o).mp one
  obtain ⟨inside', before', rest'⟩ := (binOf_iff o).mp other
  rcases Nat.lt_trichotomy b c with less | same | more
  · have under := before' b less
    rcases rest with last | upper <;> omega
  · exact same
  · have under := before c more
    rcases rest' with last | upper <;> omega

theorem usecToBin_spec :
    mi.circpadHistogramUsecToBin usec < mi.state.infinityBin ∧
      (∀ c < mi.circpadHistogramUsecToBin usec,
        wrap 32 (mi.histogramGetBinUpperBound c + mi.rttAddUsec) < usec) ∧
      (mi.circpadHistogramUsecToBin usec + 1 = mi.state.infinityBin ∨
        usec ≤ wrap 32 (mi.histogramGetBinUpperBound (mi.circpadHistogramUsecToBin usec) + mi.rttAddUsec)) := by
  have some_bin := o.some_bin
  rw [circpadHistogramUsecToBin]
  cases found : scanUp
    (fun bin => usec ≤ wrap 32 (mi.histogramGetBinUpperBound bin + mi.rttAddUsec)) mi.state.infinityBin 0 with
  | none =>
      have absent := scanUp_eq_none.mp found
      rw [Option.getD_none]
      refine ⟨by omega, ?_, .inl (by omega)⟩
      intro c lt
      exact Nat.lt_of_not_le (of_decide_eq_false (absent c (Nat.zero_le c) (by omega)))
  | some bin =>
      obtain ⟨-, inside, here, first⟩ := scanUp_eq_some.mp found
      rw [Option.getD_some]
      refine ⟨by omega, ?_, .inr (of_decide_eq_true here)⟩
      intro c lt
      exact Nat.lt_of_not_le (of_decide_eq_false (first c (Nat.zero_le c) lt))

theorem usecToBin_binOf : mi.BinOf usec (mi.circpadHistogramUsecToBin usec) ↔ mi.ShiftHarmless usec := by
  obtain ⟨inside, shiftedBefore, shiftedRest⟩ := @usecToBin_spec _ usec o
  rw [binOf_iff o]
  constructor
  · rintro ⟨-, before, rest⟩ b notLast start
    have le : b ≤ mi.circpadHistogramUsecToBin usec := by
      by_contra more
      have under := upper_lt_lower o (Nat.lt_of_not_le more) (by omega)
      rcases rest with last | upper <;> omega
    rcases Nat.eq_or_lt_of_le le with rfl | less
    · exact iff_of_true (shiftedRest.resolve_left (by omega)) (rest.resolve_left (by omega))
    · exact iff_of_false (Nat.not_le.mpr (shiftedBefore b less)) (Nat.not_le.mpr (before b less))
  · intro harmless
    have before : ∀ c < mi.circpadHistogramUsecToBin usec, mi.histogramGetBinUpperBound c < usec := by
      intro c less
      induction c with
      | zero => exact Nat.lt_of_not_le (fun le => Nat.not_le.mpr (shiftedBefore 0 less)
          ((harmless 0 (by omega) (.inl rfl)).mpr le))
      | succ c ih =>
          have previous := ih (by omega)
          have ends := o.ends c (by omega)
          exact Nat.lt_of_not_le (fun le => Nat.not_le.mpr (shiftedBefore (c + 1) less)
            ((harmless (c + 1) (by omega) (.inr (by omega))).mpr le))
    refine ⟨inside, before, ?_⟩
    by_cases last : mi.circpadHistogramUsecToBin usec + 1 = mi.state.infinityBin
    · exact .inl last
    · refine .inr ((harmless _ (by omega) ?_).mp (shiftedRest.resolve_left last))
      rcases Nat.eq_zero_or_pos (mi.circpadHistogramUsecToBin usec) with zero | positive
      · exact .inl zero
      · have previous := before (mi.circpadHistogramUsecToBin usec - 1) (by omega)
        have ends := o.ends (mi.circpadHistogramUsecToBin usec - 1) (by omega)
        rw [Nat.sub_add_cancel positive] at ends
        exact .inr (by omega)

end Ordered
end Runtime
end TorJet.Padding
