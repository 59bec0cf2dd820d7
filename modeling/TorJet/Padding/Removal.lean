import TorJet.Padding.Histogram

/-!
# Taking a token near a delay

Where the lookup finds the bin of the delay, each strategy takes one token from the bin that it is meant to take it
from.
-/

namespace TorJet.Padding
open Base

namespace Runtime

def Filled (mi : Runtime) (b : Nat) : Prop := b < mi.state.infinityBin ∧ mi.tokens b ≠ 0

def NearestAbove (mi : Runtime) (usec b : Nat) : Prop :=
  mi.Filled b ∧ usec ≤ mi.histogramGetBinUpperBound b ∧
    ∀ c < b, mi.Filled c → mi.histogramGetBinUpperBound c < usec

def NearestBelow (mi : Runtime) (usec b : Nat) : Prop :=
  mi.Filled b ∧ mi.circpadHistogramBinToUsec b ≤ usec ∧
    ∀ c, b < c → mi.Filled c → usec < mi.circpadHistogramBinToUsec c

def apart (a b : Nat) : Nat := a - b + (b - a)

def Described (mi : Runtime) (usec : Nat) : Removal → Nat → Prop
  | .none, _ => False
  | .higher, b => mi.NearestAbove usec b
  | .lower, b => mi.NearestBelow usec b
  | .closest, b => (mi.NearestAbove usec b ∨ mi.NearestBelow usec b) ∧
      ∀ c, mi.NearestAbove usec c ∨ mi.NearestBelow usec c → ∀ d, mi.BinOf usec d → apart b d ≤ apart c d
  | .closestUsec, b => (mi.NearestAbove usec b ∨ mi.NearestBelow usec b) ∧
      ∀ c, mi.NearestAbove usec c ∨ mi.NearestBelow usec c →
        apart (mi.circpadGetHistogramBinMidpoint b) usec ≤ apart (mi.circpadGetHistogramBinMidpoint c) usec
  | .exact, b => mi.Filled b ∧ mi.BinOf usec b

structure TookFrom (mi : Runtime) (b : Nat) (after : Runtime) : Prop where
  state : after.state = mi.state
  rtt : after.rttEstimateUsec = mi.rttEstimateUsec
  here : after.tokens b + 1 = mi.tokens b
  elsewhere : ∀ c ≠ b, after.tokens c = mi.tokens c

def Removes (mi : Runtime) (usec : Nat) (strategy : Removal) : Prop :=
  (∃ b, mi.Described usec strategy b ∧ mi.TookFrom b (mi.removeToken strategy usec)) ∨
    (∀ b, ¬ mi.Described usec strategy b) ∧ mi.removeToken strategy usec = mi

def Consistent (mi : Runtime) (usec : Nat) : Prop :=
  mi.BinOf usec (mi.circpadHistogramUsecToBin usec) ∧ ∀ strategy, mi.Removes usec strategy

variable {mi : Runtime} {usec b c l h : Nat}

theorem Filled.take (filled : mi.Filled b) : mi.TookFrom b (mi.take b) := by
  have inside : b < mi.histogram.length := by
    have bound := filled.1
    rw [State.infinityBin] at bound
    rw [mi.same_length]
    omega
  have some_tokens := filled.2
  rw [Runtime.take, if_neg some_tokens]
  refine ⟨rfl, rfl, ?_, ?_⟩
  · simp only [tokens, List.getD_eq_getElem?_getD, List.getElem?_set_self inside, Option.getD_some]
    rw [tokens, List.getD_eq_getElem?_getD] at some_tokens
    omega
  · intro c other
    simp only [tokens, List.getD_eq_getElem?_getD, List.getElem?_set_ne (Ne.symm other)]

theorem take_removes {strategy : Removal} (described : mi.Described usec strategy b) (filled : mi.Filled b)
    (same : mi.removeToken strategy usec = mi.take b) : mi.Removes usec strategy := by
  refine .inl ⟨b, described, ?_⟩
  rw [same]
  exact filled.take

theorem NearestAbove.unique (one : mi.NearestAbove usec b) (other : mi.NearestAbove usec c) : b = c := by
  rcases Nat.lt_trichotomy b c with less | same | more
  · have under := other.2.2 b less one.1
    have here := one.2.1
    omega
  · exact same
  · have under := one.2.2 c more other.1
    have here := other.2.1
    omega

theorem NearestBelow.unique (one : mi.NearestBelow usec b) (other : mi.NearestBelow usec c) : b = c := by
  rcases Nat.lt_trichotomy b c with less | same | more
  · have over_it := one.2.2 c less other.1
    have here := other.2.1
    omega
  · exact same
  · have over_it := other.2.2 b more one.1
    have here := one.2.1
    omega

def distance (mi : Runtime) (usec : Nat) (useUsec : Bool) (b : Nat) : Nat :=
  if useUsec then apart (mi.circpadGetHistogramBinMidpoint b) usec else apart b (mi.circpadHistogramUsecToBin usec)

theorem removeClosest_both {useUsec : Bool} (lower : mi.circpadMachineFirstLowerIndex usec = l)
    (higher : mi.circpadMachineFirstHigherIndex usec = h) (under : l ≤ mi.circpadHistogramUsecToBin usec)
    (over_it : mi.circpadHistogramUsecToBin usec ≤ h) (inside : h < mi.state.infinityBin) :
    mi.circpadMachineRemoveClosestToken usec useUsec =
      if useUsec then
        if usec < mi.circpadGetHistogramBinMidpoint l then mi.take l
        else if usec > mi.circpadGetHistogramBinMidpoint h then mi.take h
        else if wsub 32 usec (mi.circpadGetHistogramBinMidpoint l) >
          wsub 32 (mi.circpadGetHistogramBinMidpoint h) usec then mi.take h
        else mi.take l
      else if mi.circpadHistogramUsecToBin usec - l > h - mi.circpadHistogramUsecToBin usec then mi.take h
      else mi.take l := by
  have short : h ≠ mi.state.histogramLen := by
    rw [State.infinityBin] at inside
    omega
  rw [circpadMachineRemoveClosestToken, lower, higher]
  rw [if_neg (by omega), if_neg (fun both => short both.1), if_neg short, if_neg (by omega), Int.toNat_natCast]
  congr 1
  have same : ((mi.circpadHistogramUsecToBin usec : Int) - l > h - mi.circpadHistogramUsecToBin usec) =
      (mi.circpadHistogramUsecToBin usec - l > h - mi.circpadHistogramUsecToBin usec) := by
    rw [eq_iff_iff]
    omega
  simp only [same]

section Ordered
variable (o : mi.Ordered)
include o

theorem midpoint_between (inside : b < mi.state.infinityBin) :
    mi.circpadHistogramBinToUsec b ≤ mi.circpadGetHistogramBinMidpoint b ∧
      mi.circpadGetHistogramBinMidpoint b ≤ mi.histogramGetBinUpperBound b ∧
      mi.circpadGetHistogramBinMidpoint b < 2 ^ 32 := by
  have order := lower_le_upper o inside
  have ends := o.ends b inside
  have fits := o.fits (b + 1) inside
  rw [circpadGetHistogramBinMidpoint, wsub_of_le order (by omega), wrap_of_lt (by omega)]
  omega

theorem nearest_sides (below : mi.NearestBelow usec l) (above : mi.NearestAbove usec h) :
    l = h ∨ mi.histogramGetBinUpperBound l < usec ∧ usec < mi.circpadHistogramBinToUsec h := by
  rcases Nat.lt_trichotomy l h with less | same | more
  · exact .inr ⟨above.2.2 l less below.1, below.2.2 h less above.1⟩
  · exact .inl same
  · have order := upper_lt_lower o more below.1.1.le
    have upper := above.2.1
    have lower := below.2.1
    omega

theorem removeClosest_closer {useUsec : Bool} (below : mi.NearestBelow usec l) (above : mi.NearestAbove usec h)
    (lower : mi.circpadMachineFirstLowerIndex usec = l) (higher : mi.circpadMachineFirstHigherIndex usec = h)
    (under : l ≤ mi.circpadHistogramUsecToBin usec) (over_it : mi.circpadHistogramUsecToBin usec ≤ h) :
    mi.circpadMachineRemoveClosestToken usec useUsec = mi.take l ∧
        mi.distance usec useUsec l ≤ mi.distance usec useUsec h ∨
      mi.circpadMachineRemoveClosestToken usec useUsec = mi.take h ∧
        mi.distance usec useUsec h ≤ mi.distance usec useUsec l := by
  rw [removeClosest_both lower higher under over_it above.1.1]
  rcases nearest_sides o below above with rfl | ⟨left, right⟩
  · simp
  · cases useUsec with
    | false =>
        simp only [distance, apart, Bool.false_eq_true, if_false]
        split
        · exact .inr ⟨rfl, by omega⟩
        · exact .inl ⟨rfl, by omega⟩
    | true =>
        obtain ⟨-, leftMid, -⟩ := midpoint_between o below.1.1
        obtain ⟨rightMid, -, fits⟩ := midpoint_between o above.1.1
        simp only [distance, apart, if_true]
        rw [if_neg (by omega), if_neg (by omega), wsub_of_le (by omega) (by omega), wsub_of_le (by omega) fits]
        split
        · exact .inr ⟨rfl, by omega⟩
        · exact .inl ⟨rfl, by omega⟩

variable (found : mi.BinOf usec (mi.circpadHistogramUsecToBin usec))
include found

theorem first_higher :
    (∃ b, mi.circpadMachineFirstHigherIndex usec = b ∧ mi.circpadHistogramUsecToBin usec ≤ b ∧
      mi.NearestAbove usec b) ∨
    mi.circpadMachineFirstHigherIndex usec = mi.state.histogramLen ∧ ∀ b, ¬ mi.NearestAbove usec b := by
  obtain ⟨inside, before, -⟩ := (binOf_iff o).mp found
  rw [circpadMachineFirstHigherIndex]
  cases scanned : scanUp (fun bin => mi.tokens bin ≠ 0 && mi.histogramGetBinUpperBound bin ≥ usec)
    (mi.state.infinityBin - mi.circpadHistogramUsecToBin usec) (mi.circpadHistogramUsecToBin usec) with
  | none =>
      have absent := scanUp_eq_none.mp scanned
      refine .inr ⟨rfl, ?_⟩
      rintro b ⟨⟨bound, some_tokens⟩, upper, -⟩
      have le : mi.circpadHistogramUsecToBin usec ≤ b := by
        by_contra less
        have under := before b (Nat.lt_of_not_le less)
        omega
      have not_here := absent b le (by omega)
      simp only [Bool.and_eq_false_iff, decide_eq_false_iff_not] at not_here
      rcases not_here with empty | low
      · exact empty some_tokens
      · exact low upper
  | some b =>
      obtain ⟨le, bound, here, first⟩ := scanUp_eq_some.mp scanned
      simp only [Bool.and_eq_true, decide_eq_true_eq] at here
      refine .inl ⟨b, rfl, le, ⟨by omega, here.1⟩, here.2, ?_⟩
      rintro c less ⟨bound', some_tokens⟩
      rcases Nat.lt_or_ge c (mi.circpadHistogramUsecToBin usec) with under | above
      · exact before c under
      · have not_here := first c above less
        simp only [Bool.and_eq_false_iff, decide_eq_false_iff_not] at not_here
        rcases not_here with empty | low
        · exact absurd some_tokens empty
        · exact Nat.lt_of_not_le low

theorem first_lower :
    (∃ b : Nat, mi.circpadMachineFirstLowerIndex usec = b ∧ b ≤ mi.circpadHistogramUsecToBin usec ∧
      mi.NearestBelow usec b) ∨
    mi.circpadMachineFirstLowerIndex usec = -1 ∧ ∀ b, ¬ mi.NearestBelow usec b := by
  obtain ⟨inside, before, rest⟩ := (binOf_iff o).mp found
  have after : ∀ c, mi.circpadHistogramUsecToBin usec < c → c < mi.state.infinityBin →
      usec < mi.circpadHistogramBinToUsec c := by
    intro c more bound
    have upper := rest.resolve_left (by omega)
    have under := upper_lt_lower o more bound.le
    omega
  rw [circpadMachineFirstLowerIndex]
  cases scanned : scanDown (fun bin => mi.tokens bin ≠ 0 && mi.circpadHistogramBinToUsec bin ≤ usec)
    (mi.circpadHistogramUsecToBin usec + 1) with
  | none =>
      have absent := scanDown_eq_none.mp scanned
      refine .inr ⟨rfl, ?_⟩
      rintro b ⟨⟨bound, some_tokens⟩, lower, -⟩
      have le : b ≤ mi.circpadHistogramUsecToBin usec := by
        by_contra more
        have above := after b (Nat.lt_of_not_le more) bound
        omega
      have not_here := absent b (Nat.lt_succ_of_le le)
      simp only [Bool.and_eq_false_iff, decide_eq_false_iff_not] at not_here
      rcases not_here with empty | high
      · exact empty some_tokens
      · exact high lower
  | some b =>
      obtain ⟨bound, here, last⟩ := scanDown_eq_some.mp scanned
      simp only [Bool.and_eq_true, decide_eq_true_eq] at here
      refine .inl ⟨b, rfl, by omega, ⟨by omega, here.1⟩, here.2, ?_⟩
      rintro c more ⟨bound', some_tokens⟩
      rcases Nat.lt_or_ge (mi.circpadHistogramUsecToBin usec) c with over_it | within
      · exact after c over_it bound'
      · have not_here := last c more (by omega)
        simp only [Bool.and_eq_false_iff, decide_eq_false_iff_not] at not_here
        rcases not_here with empty | high
        · exact absurd some_tokens empty
        · exact Nat.lt_of_not_le high

theorem higher_removes : mi.Removes usec .higher := by
  rcases first_higher o found with ⟨b, index, -, nearest⟩ | ⟨index, absent⟩
  · refine take_removes nearest nearest.1 ?_
    rw [removeToken, circpadMachineRemoveHigherToken, index, if_pos nearest.1.1]
  · refine .inr ⟨absent, ?_⟩
    have outside : ¬ mi.state.histogramLen < mi.state.infinityBin := by
      rw [State.infinityBin]
      omega
    rw [removeToken, circpadMachineRemoveHigherToken, index, if_neg outside]

theorem lower_removes : mi.Removes usec .lower := by
  rcases first_lower o found with ⟨b, index, -, nearest⟩ | ⟨index, absent⟩
  · refine take_removes nearest nearest.1 ?_
    have bound := nearest.1.1
    rw [removeToken, circpadMachineRemoveLowerToken, index, if_pos (by omega), Int.toNat_natCast]
  · refine .inr ⟨absent, ?_⟩
    rw [removeToken, circpadMachineRemoveLowerToken, index, if_neg (by omega)]

theorem exact_removes : mi.Removes usec .exact := by
  by_cases empty : mi.tokens (mi.circpadHistogramUsecToBin usec) = 0
  · refine .inr ⟨?_, ?_⟩
    · rintro b ⟨⟨bound, some_tokens⟩, here⟩
      obtain rfl := BinOf.unique o here found
      exact some_tokens empty
    · rw [removeToken, circpadMachineRemoveExact, Runtime.take, if_pos empty]
  · exact take_removes ⟨⟨found.1, empty⟩, found⟩ ⟨found.1, empty⟩ rfl

theorem removeClosest_spec (useUsec : Bool) :
    (∃ b, (mi.NearestAbove usec b ∨ mi.NearestBelow usec b) ∧
      (∀ c, mi.NearestAbove usec c ∨ mi.NearestBelow usec c →
        mi.distance usec useUsec b ≤ mi.distance usec useUsec c) ∧
      mi.circpadMachineRemoveClosestToken usec useUsec = mi.take b) ∨
    (∀ b, ¬ (mi.NearestAbove usec b ∨ mi.NearestBelow usec b)) ∧
      mi.circpadMachineRemoveClosestToken usec useUsec = mi := by
  have inside := found.1
  rcases first_lower o found with ⟨l, lower, under, below⟩ | ⟨lower, none_below⟩
  · rcases first_higher o found with ⟨h, higher, over_it, above⟩ | ⟨higher, none_above⟩
    · rcases @removeClosest_closer _ _ _ _ o useUsec below above lower higher under over_it with
        ⟨takes, closer⟩ | ⟨takes, closer⟩
      · refine .inl ⟨l, .inr below, ?_, takes⟩
        rintro c (above' | below')
        · rwa [above'.unique above]
        · rw [below'.unique below]
      · refine .inl ⟨h, .inl above, ?_, takes⟩
        rintro c (above' | below')
        · rw [above'.unique above]
        · rwa [below'.unique below]
    · refine .inl ⟨l, .inr below, ?_, ?_⟩
      · rintro c (above' | below')
        · exact absurd above' (none_above c)
        · rw [below'.unique below]
      · rw [State.infinityBin] at inside
        rw [circpadMachineRemoveClosestToken, lower, higher]
        rw [if_neg (by omega), if_neg (by omega), if_pos rfl, Int.toNat_natCast]
  · rcases first_higher o found with ⟨h, higher, over_it, above⟩ | ⟨higher, none_above⟩
    · refine .inl ⟨h, .inl above, ?_, ?_⟩
      · rintro c (above' | below')
        · rw [above'.unique above]
        · exact absurd below' (none_below c)
      · have bound := above.1.1
        rw [State.infinityBin] at bound
        rw [circpadMachineRemoveClosestToken, lower, higher]
        rw [if_neg (by omega), if_neg (by omega), if_neg (by omega), if_pos rfl]
    · refine .inr ⟨fun b near => near.elim (none_above b) (none_below b), ?_⟩
      rw [State.infinityBin] at inside
      rw [circpadMachineRemoveClosestToken, lower, higher, if_neg (by omega), if_pos ⟨rfl, rfl⟩]

theorem closest_removes : mi.Removes usec .closest := by
  rcases removeClosest_spec o found false with ⟨b, near, closer, takes⟩ | ⟨absent, keeps⟩
  · have filled : mi.Filled b := near.elim (fun above => above.1) fun below => below.1
    refine take_removes ⟨near, ?_⟩ filled takes
    intro c near' d here
    obtain rfl := BinOf.unique o here found
    simpa [distance] using closer c near'
  · exact .inr ⟨fun b described => absent b described.1, keeps⟩

theorem closestUsec_removes : mi.Removes usec .closestUsec := by
  rcases removeClosest_spec o found true with ⟨b, near, closer, takes⟩ | ⟨absent, keeps⟩
  · have filled : mi.Filled b := near.elim (fun above => above.1) fun below => below.1
    refine take_removes ⟨near, ?_⟩ filled takes
    intro c near'
    simpa [distance] using closer c near'
  · exact .inr ⟨fun b described => absent b described.1, keeps⟩

end Ordered

/-- The histogram of a state is indexed consistently exactly for the delays that the second shift does no harm to. -/
theorem consistent_iff (valid : paddingMachineStateIsValid mi.state = true) (used : mi.state.histogramLen ≠ 0)
    (fits : ∀ edge ∈ mi.state.histogramEdges, edge + mi.rttAddUsec < 2 ^ 32) :
    mi.Consistent usec ↔ mi.ShiftHarmless usec := by
  have o := ordered valid used fits
  constructor
  · rintro ⟨found, -⟩
    exact (usecToBin_binOf o).mp found
  · intro harmless
    have found := (usecToBin_binOf o).mpr harmless
    refine ⟨found, ?_⟩
    intro strategy
    cases strategy with
    | none => exact .inr ⟨fun b described => described, rfl⟩
    | higher => exact higher_removes o found
    | lower => exact lower_removes o found
    | closest => exact closest_removes o found
    | closestUsec => exact closestUsec_removes o found
    | exact => exact exact_removes o found

def shifted : Runtime where
  state :=
    { histogramLen := 4
      histogram := [1, 1, 1, 0]
      histogramEdges := [0, 500000, 1000000, 1500000]
      histogramTotalTokens := 3
      lengthIncludesNonpadding := false
      useRttEstimate := true
      tokenRemoval := .lower
      small := by decide
      tokens_length := rfl
      edges_length := rfl
      edges_fit := by decide }
  rttEstimateUsec := 300000
  histogram := [1, 1, 1, 0]
  same_length := rfl

theorem consistent_iff_shifted : shifted.Consistent 800000 ↔ shifted.ShiftHarmless 800000 :=
  consistent_iff (by decide) (by decide) (by decide)

/-- A delay of 0.9 seconds is in the second bin, but is looked up in the first one. -/
theorem shifted_inconsistent :
    ∃ mi : Runtime, ∃ usec : Nat, paddingMachineStateIsValid mi.state = true ∧ mi.state.histogramLen ≠ 0 ∧
      (∀ edge ∈ mi.state.histogramEdges, edge + mi.rttAddUsec < 2 ^ 32) ∧ ¬ mi.Consistent usec := by
  refine ⟨shifted, 900000, by decide, by decide, by decide, ?_⟩
  rintro ⟨⟨-, ⟨-, upper⟩ | ⟨-, below⟩ | ⟨last, -⟩⟩, -⟩
  · exact absurd upper (by decide)
  · exact absurd (below 0 (by decide)) (by decide)
  · exact absurd last (by decide)

end Runtime
end TorJet.Padding
