import Mathlib.Algebra.Order.Ring.Nat
import Mathlib.Data.List.Basic

/-!
# Bandwidth weights

The totals of the bandwidths of guards, exits, both and neither, and the weights that are computed from them. All of
it is done in 64 bits, in which the products fit as long as three times the scale and the total do.
-/

namespace TorJet.Dirauth

inductive BwWeightsError
  | noError
  | rangeError
  | sumgError
  | sumeError
  | sumdError
  | balanceMidError
  | balanceEgError
  deriving DecidableEq, Repr

/-- The seven weights; `wgd` is the weight of relays with both flags for the guard position. -/
structure Weights where
  wgg : Int
  wgd : Int
  wmg : Int
  wme : Int
  wmd : Int
  wee : Int
  wed : Int
  deriving DecidableEq, Repr

def rangeCheck (w : Weights) (mx : Int) : Bool :=
  [w.wgg, w.wgd, w.wmg, w.wme, w.wmd, w.wed, w.wee].all fun weight => decide (weight ≥ 0) && decide (weight ≤ mx)

def checkEq (a b margin : Int) : Bool := if a - b ≥ 0 then a - b ≤ margin else b - a ≤ margin

def networkstatusCheckWeights (w : Weights) (scale G M E D T margin : Int) (doBalance : Bool) : BwWeightsError :=
  if !checkEq (w.wed + w.wmd + w.wgd) scale margin then .sumdError
  else if !checkEq (w.wmg + w.wgg) scale margin then .sumgError
  else if !checkEq (w.wme + w.wee) scale margin then .sumeError
  else if !rangeCheck w scale then .rangeError
  else if doBalance then
    if !checkEq (w.wgg * G + w.wgd * D) (w.wee * E + w.wed * D) ((margin * T).tdiv 3) then .balanceEgError
    else if !checkEq (w.wgg * G + w.wgd * D) (M * scale + w.wmd * D + w.wme * E + w.wmg * G) ((margin * T).tdiv 3) then
      .balanceMidError
    else .noError
  else .noError

def case1 (G M E weightScale : Int) : Weights :=
  let wee := (weightScale * (E + G + M)).tdiv (3 * E)
  let wmg := (weightScale * (2 * G - E - M)).tdiv (3 * G)
  { wgd := weightScale.tdiv 3
    wed := weightScale.tdiv 3
    wmd := weightScale.tdiv 3
    wee := wee
    wme := weightScale - wee
    wmg := wmg
    wgg := weightScale - wmg }

def case2a (G E weightScale : Int) : Weights :=
  { wgg := weightScale
    wee := weightScale
    wmg := 0
    wme := 0
    wmd := 0
    wed := if E < G then weightScale else 0
    wgd := if E < G then 0 else weightScale }

def case2b1 (G M E D weightScale : Int) : Weights :=
  let wed := (weightScale * (D - 2 * E + 4 * G - 2 * M)).tdiv (3 * D)
  { wee := (weightScale * (E - G + M)).tdiv E
    wed := wed
    wme := (weightScale * (G - M)).tdiv E
    wmg := 0
    wgg := weightScale
    wmd := (weightScale - wed).tdiv 2
    wgd := (weightScale - wed).tdiv 2 }

def case2b2 (G M E D weightScale : Int) : Weights :=
  let wed := (weightScale * (D - 2 * E + G + M)).tdiv (3 * D)
  let wmd := (weightScale * (D - 2 * M + G + E)).tdiv (3 * D)
  let wmd := if wmd < 0 then 0 else wmd
  { wgg := weightScale
    wee := weightScale
    wed := wed
    wmd := wmd
    wme := 0
    wmg := 0
    wgd := weightScale - wed - wmd }

def case3a (G M E weightScale : Int) : Weights :=
  if G < E then
    let wme := if E < M then 0 else (weightScale * (E - M)).tdiv (2 * E)
    { wgg := weightScale
      wgd := weightScale
      wmd := 0
      wed := 0
      wmg := 0
      wme := wme
      wee := weightScale - wme }
  else
    let wmg := if G < M then 0 else (weightScale * (G - M)).tdiv (2 * G)
    { wee := weightScale
      wed := weightScale
      wmd := 0
      wgd := 0
      wme := 0
      wmg := wmg
      wgg := weightScale - wmg }

def case3b (G M E D weightScale : Int) : Weights :=
  if G < E then
    let wgd := (weightScale * (D - 2 * G + E + M)).tdiv (3 * D)
    let wee := (weightScale * (E + M)).tdiv (2 * E)
    { wgg := weightScale
      wgd := wgd
      wmg := 0
      wee := wee
      wme := weightScale - wee
      wmd := (weightScale - wgd).tdiv 2
      wed := (weightScale - wgd).tdiv 2 }
  else
    let wed := (weightScale * (D - 2 * E + G + M)).tdiv (3 * D)
    let wgg := (weightScale * (G + M)).tdiv (2 * G)
    { wee := weightScale
      wed := wed
      wme := 0
      wgg := wgg
      wmg := weightScale - wgg
      wmd := (weightScale - wed).tdiv 2
      wgd := (weightScale - wed).tdiv 2 }

def checked (w : Weights) (scale G M E D T : Int) : Option Weights :=
  if networkstatusCheckWeights w scale G M E D T 10 true = .noError then some w else none

def case2b (G M E D T weightScale : Int) : Option Weights :=
  let w := case2b1 G M E D weightScale
  if networkstatusCheckWeights w weightScale G M E D T 10 true = .noError then some w
  else
    let w := case2b2 G M E D weightScale
    let berr := networkstatusCheckWeights w weightScale G M E D T 10 true
    if berr ≠ .noError ∧ berr ≠ .balanceMidError then none else some w

/-- The cases of `networkstatus_compute_bw_weights_v10`. -/
def selectWeights (G M E D T weightScale : Int) : Option Weights :=
  if 3 * E ≥ T ∧ 3 * G ≥ T then checked (case1 G M E weightScale) weightScale G M E D T
  else if 3 * E < T ∧ 3 * G < T then
    if min E G + D < max E G then some (case2a G E weightScale) else case2b G M E D T weightScale
  else if 3 * (min E G + D) < T then some (case3a G M E weightScale)
  else checked (case3b G M E D weightScale) weightScale G M E D T

/-- What `networkstatus_compute_bw_weights_v10` does: it returns 0, fails an assertion, or writes the line. -/
inductive Computed
  | refused
  | asserted
  | emitted (w : Weights)
  deriving DecidableEq, Repr

def networkstatusComputeBwWeightsV10 (G M E D T weightScale : Int) : Computed :=
  if G ≤ 0 ∨ M ≤ 0 ∨ E ≤ 0 ∨ D ≤ 0 then .refused
  else
    match selectWeights G M E D T weightScale with
    | none => .refused
    | some w => if 0 < weightScale ∧ weightScale ≤ 2 ^ 31 - 1 then .emitted w else .asserted

/-- The values of the `bandwidth-weights` line, in its order. -/
def bandwidthWeights (w : Weights) (weightScale : Int) : List (String × Int) :=
  [("Wbd", w.wmd), ("Wbe", w.wme), ("Wbg", w.wmg), ("Wbm", weightScale), ("Wdb", weightScale), ("Web", weightScale),
    ("Wed", w.wed), ("Wee", w.wee), ("Weg", w.wed), ("Wem", w.wee), ("Wgb", weightScale), ("Wgd", w.wgd),
    ("Wgg", w.wgg), ("Wgm", w.wgg), ("Wmb", weightScale), ("Wmd", w.wmd), ("Wme", w.wme), ("Wmg", w.wmg),
    ("Wmm", weightScale)]

structure Totals where
  G : Int
  M : Int
  E : Int
  D : Int
  T : Int
  deriving DecidableEq, Repr

/-- `routerstatus_t` with the flags it is counted with; only guards have a guard fraction. -/
structure Routerstatus where
  bandwidthKb : Nat
  hasBandwidth : Bool
  guardfraction : Option Nat
  isExit : Bool
  isGuard : Bool
  guard_of_guardfraction : guardfraction.isSome = true → isGuard = true

/-- The number as an `int`. -/
def toInt32 (n : Nat) : Int := if n % 2 ^ 32 < 2 ^ 31 then (n % 2 ^ 32 : Nat) else (n % 2 ^ 32 : Nat) - 2 ^ 32

section Totals
-- the part of a bandwidth that a guard fraction is for, which is computed in floating point
variable (guardBw : Nat → Int → Int)

/-- `non_guard_bw` of `guard_get_guardfraction_bandwidth` -/
def nonGuardBw (percentage : Nat) (bandwidth : Int) : Int := bandwidth - guardBw percentage bandwidth

def updateTotalBandwidthWeights (t : Totals) (rs : Routerstatus) : Totals :=
  if !rs.hasBandwidth then t
  else
    let defaultBandwidth :=
      match rs.guardfraction with
      | some percentage => guardBw percentage (toInt32 rs.bandwidthKb)
      | none => toInt32 rs.bandwidthKb
    let guardfractionBandwidth :=
      match rs.guardfraction with
      | some percentage => nonGuardBw guardBw percentage (toInt32 rs.bandwidthKb)
      | none => 0
    let t := { t with T := t.T + defaultBandwidth }
    if rs.isExit && rs.isGuard then
      { t with
        D := t.D + defaultBandwidth
        E := if rs.guardfraction.isSome then t.E + guardfractionBandwidth else t.E }
    else if rs.isExit then { t with E := t.E + defaultBandwidth }
    else if rs.isGuard then
      { t with
        G := t.G + defaultBandwidth
        M := if rs.guardfraction.isSome then t.M + guardfractionBandwidth else t.M }
    else { t with M := t.M + defaultBandwidth }

def totalBandwidthWeights (relays : List Routerstatus) : Totals :=
  relays.foldl (updateTotalBandwidthWeights guardBw) ⟨0, 0, 0, 0, 0⟩

end Totals
end TorJet.Dirauth
