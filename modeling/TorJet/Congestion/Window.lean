import TorJet.Congestion.Sendme

/-!
# The congestion window

The window stays between one increment and its maximum, and the counters of 16 bits hold what they are
set to, if the parameters are in tune with each other: the ranges to which each is clamped alone do not
give that.
-/

namespace TorJet.Congestion
open Base

namespace CcParams
variable (p : CcParams)

def least : Nat := max p.sendmeInc p.cwndInc

def widest : Nat := max p.cwndInit (max p.cwndMax p.cwndMin)

def growth : Nat := max p.gamma (max ((p.cwndIncPctSs * p.sendmeInc + 50) / 100) 128)

/-- The window when the counters are set, before it is cut down to `cwnd_max`. -/
def peak : Nat := max (min p.ssCwndMax (p.widest + p.growth)) (p.widest + p.cwndInc)

structure Tuned : Prop where
  init : p.least ≤ p.cwndInit
  gamma : p.least ≤ p.gamma
  cwndMin : p.least ≤ p.cwndMin
  cwndMax : p.cwndInc ≤ p.cwndMax
  ssCwndMax : p.cwndInc ≤ p.ssCwndMax
  delta : p.cwndInc ≤ p.delta
  counters : (p.peak + p.sendmeInc / 2) / p.sendmeInc < 2 ^ 16

structure InRange : Prop where
  sendmeInc : 0 < p.sendmeInc ∧ p.sendmeInc ≤ 255
  cwndInit : p.cwndInit ≤ 10000
  cwndInc : p.cwndInc ≤ 1000
  cwndIncRate : 0 < p.cwndIncRate ∧ p.cwndIncRate ≤ 250
  cwndIncPctSs : p.cwndIncPctSs ≤ 500
  cwndMin : p.cwndMin ≤ 1000
  cwndMax : 500 ≤ p.cwndMax ∧ p.cwndMax < 2 ^ 31
  ssCwndMax : 500 ≤ p.ssCwndMax ∧ p.ssCwndMax < 2 ^ 31
  ssCwndCap : p.ssCwndCap < 2 ^ 31
  gamma : p.gamma ≤ 1000

end CcParams

theorem Circuit.inRange (c : Circuit) : c.params.InRange := by
  have valid := c.negotiated
  have inc : ccSendmeInc c.consensus ≤ 254 := (clampTo_range (by decide)).2
  have below {n : Nat} (le : n ≤ int32Max) : n < 2 ^ 31 := by
    unfold int32Max at le
    omega
  simp only [validateSendmeIncrement, decide_eq_true_eq] at valid
  refine ⟨?_, ?_, ?_, ?_, ?_, ?_, ?_, ?_, ?_, ?_⟩
  · exact ⟨Nat.pos_of_ne_zero valid.1, by change c.sendmeInc ≤ 255; omega⟩
  · exact (clampTo_range (by decide)).2
  · exact (clampTo_range (by decide)).2
  · exact clampTo_range (by decide)
  · exact (clampTo_range (by decide)).2
  · exact (clampTo_range (by decide)).2
  · exact ⟨(clampTo_range (by decide)).1, below (clampTo_range (by decide)).2⟩
  · exact ⟨(clampTo_range (by decide)).1, below (clampTo_range (by decide)).2⟩
  · exact below (clampTo_range (by decide)).2
  · exact (clampTo_range (by decide)).2

section Window
variable {p : CcParams} {env : Surroundings} {cc : CongestionControl} {queueUse : Nat}

theorem CcParams.InRange.widest_lt (range : p.InRange) : p.widest < 2 ^ 31 := by
  have init := range.cwndInit
  have most := range.cwndMax.2
  have least := range.cwndMin
  unfold CcParams.widest
  omega

theorem CcParams.InRange.growth_le (range : p.InRange) : p.growth ≤ 1275 := by
  have gamma := range.gamma
  have scaled : p.cwndIncPctSs * p.sendmeInc ≤ 500 * 255 :=
    Nat.mul_le_mul range.cwndIncPctSs range.sendmeInc.2
  unfold CcParams.growth
  omega

namespace CongestionControl

structure InWindow (p : CcParams) (cc : CongestionControl) : Prop where
  least : p.least ≤ cc.cwnd
  widest : cc.cwnd ≤ p.widest
  rtt : cc.inSlowStart = true → cc.minRttUsec ≤ cc.ewmaRttUsec
  sound : cc.wrapped = false ∧ cc.truncated = false

theorem new_inWindow (tuned : p.Tuned) : (new p).InWindow p where
  least := tuned.init
  widest := Nat.le_max_left ..
  rtt _ := Nat.le_refl _
  sound := ⟨rfl, rfl⟩

theorem updateMinRtt_rtt (slow : cc.inSlowStart = true) :
    (cc.updateMinRtt p).minRttUsec ≤ (cc.updateMinRtt p).ewmaRttUsec := by
  unfold updateMinRtt
  split_ifs with none reset less
  · exact Nat.le_refl _
  · simp [slow] at reset
  · exact Nat.le_refl _
  · exact Nat.le_of_not_lt less

theorem updateMinRtt_flags (p : CcParams) (cc : CongestionControl) : (cc.updateMinRtt p).inSlowStart = cc.inSlowStart ∧
    (cc.updateMinRtt p).wrapped = cc.wrapped ∧ (cc.updateMinRtt p).truncated = cc.truncated := by
  unfold updateMinRtt
  split_ifs <;> exact ⟨rfl, rfl, rfl⟩

theorem InWindow.updateCircuitRtt (env : Surroundings) (h : cc.InWindow p) :
    (cc.updateCircuitRtt p env).1.InWindow p := by
  obtain ⟨-, cwnd, -⟩ := updateCircuitRtt_frame p env cc
  refine ⟨cwnd ▸ h.least, cwnd ▸ h.widest, ?_, ?_⟩
  · unfold CongestionControl.updateCircuitRtt
    dsimp only
    split
    · exact h.rtt
    · intro slow
      exact updateMinRtt_rtt ((updateMinRtt_flags p _).1 ▸ slow)
  · unfold CongestionControl.updateCircuitRtt
    dsimp only
    split
    · exact h.sound
    · obtain ⟨-, wrapped, truncated⟩ := updateMinRtt_flags p { cc with
        sendmePendingTimestamps := cc.sendmePendingTimestamps.tail
        ewmaRttUsec := _
        maxRttUsec := _ }
      exact ⟨wrapped.trans h.sound.1, truncated.trans h.sound.2⟩

theorem InWindow.updateCircuitBdp (env : Surroundings) (rtt : Nat) (h : cc.InWindow p) :
    (cc.updateCircuitBdp p env rtt).1.InWindow p ∧ ((cc.updateCircuitBdp p env rtt).1.inSlowStart = true →
      (cc.updateCircuitBdp p env rtt).1.bdp ≤ p.widest) := by
  have widest := h.widest
  have cwndMin : p.cwndMin ≤ p.widest := by
    unfold CcParams.widest
    omega
  unfold CongestionControl.updateCircuitBdp
  dsimp only
  split
  · refine ⟨⟨h.least, h.widest, h.rtt, h.sound⟩, fun _ => ?_⟩
    dsimp only
    split_ifs
    · exact widest
    · exact cwndMin
    · omega
  · rename_i measured
    have estimate (slow : cc.inSlowStart = true) :
        wrap 64 (cc.cwnd * cc.minRttUsec) / cc.ewmaRttUsec ≤ p.widest := by
      calc wrap 64 (cc.cwnd * cc.minRttUsec) / cc.ewmaRttUsec
          ≤ cc.cwnd * cc.ewmaRttUsec / cc.ewmaRttUsec :=
            Nat.div_le_div_right (wrap_le.trans (Nat.mul_le_mul_left _ (h.rtt slow)))
        _ = cc.cwnd := Nat.mul_div_cancel _ (Nat.pos_of_ne_zero measured)
        _ ≤ p.widest := widest
    split
    · exact ⟨⟨h.least, h.widest, h.rtt, h.sound⟩, estimate⟩
    · exact ⟨⟨h.least, h.widest, h.rtt, h.sound⟩, estimate⟩

theorem rfc3742SsInc_le (cc : CongestionControl) (range : p.InRange) : cc.rfc3742SsInc p ≤ p.growth := by
  unfold rfc3742SsInc CcParams.growth
  split
  · omega
  · rename_i above
    have inc := range.sendmeInc.2
    have scaled : p.sendmeInc * p.ssCwndCap ≤ 255 * cc.cwnd := Nat.mul_le_mul inc (by omega)
    have part : wrap 64 (p.sendmeInc * p.ssCwndCap + cc.cwnd) / (2 * cc.cwnd) ≤ 128 := by
      refine Nat.div_le_of_le_mul ?_
      have le : wrap 64 (p.sendmeInc * p.ssCwndCap + cc.cwnd) ≤ p.sendmeInc * p.ssCwndCap + cc.cwnd := wrap_le
      omega
    omega

structure Updated (p : CcParams) (cc : CongestionControl) : Prop where
  least : p.least ≤ cc.cwnd
  peak : cc.cwnd ≤ p.peak
  rtt : cc.inSlowStart = true → cc.minRttUsec ≤ cc.ewmaRttUsec
  sound : cc.wrapped = false ∧ cc.truncated = false

theorem slowStart_window (range : p.InRange) (tuned : p.Tuned) (h : cc.InWindow p) (bdp : cc.bdp ≤ p.widest) :
    (cc.slowStart p queueUse).Updated p := by
  have least := h.least
  have widest := h.widest
  have gamma := tuned.gamma
  have below := range.widest_lt
  have growth := range.growth_le
  have gammaGrowth : p.gamma ≤ p.growth := Nat.le_max_left ..
  have inc := rfc3742SsInc_le cc range
  have leastMax : p.least ≤ p.ssCwndMax := Nat.max_le.mpr
    ⟨(range.sendmeInc.2.trans (by decide)).trans range.ssCwndMax.1, tuned.ssCwndMax⟩
  have grown : wrap 64 (cc.cwnd + cc.rfc3742SsInc p) = cc.cwnd + cc.rfc3742SsInc p := wrap_of_lt (by omega)
  have cut : wrap 64 (cc.bdp + p.gamma) = cc.bdp + p.gamma := wrap_of_lt (by omega)
  have capped (cc' : CongestionControl) (least' : p.least ≤ cc'.cwnd) (most : cc'.cwnd ≤ p.widest + p.growth)
      (rtt : cc'.inSlowStart = true → cc'.minRttUsec ≤ cc'.ewmaRttUsec)
      (sound : cc'.wrapped = false ∧ cc'.truncated = false) :
      (if p.ssCwndMax ≤ cc'.cwnd then { cc' with cwnd := p.ssCwndMax, inSlowStart := false } else cc').Updated p := by
    split
    · rename_i above
      refine ⟨leastMax, ?_, by simp, sound⟩
      exact (Nat.le_min.mpr ⟨Nat.le_refl _, above.trans most⟩).trans (Nat.le_max_left ..)
    · refine ⟨least', ?_, rtt, sound⟩
      exact (Nat.le_min.mpr ⟨by omega, most⟩).trans (Nat.le_max_left ..)
  unfold slowStart
  dsimp only
  rw [grown, cut]
  apply capped
  · split_ifs
    · exact least.trans (Nat.le_add_right ..)
    · exact least.trans (Nat.le_add_right ..)
    · exact least
    · exact gamma.trans (Nat.le_add_left ..)
  · split_ifs
    · exact Nat.add_le_add widest inc
    · exact Nat.add_le_add widest inc
    · exact widest.trans (Nat.le_add_right ..)
    · exact Nat.add_le_add bdp gammaGrowth
  · split_ifs
    · simp
    · exact h.rtt
    · exact h.rtt
    · simp
  · split_ifs <;> exact h.sound

theorem steady_window (range : p.InRange) (tuned : p.Tuned) (h : cc.InWindow p) (use : queueUse = cc.queueUse) :
    (cc.steady p queueUse).Updated p := by
  have least := h.least
  have widest := h.widest
  have below := range.widest_lt
  have delta := tuned.delta
  have minimum := tuned.cwndMin
  have step := range.cwndInc
  have incLeast : p.cwndInc ≤ p.least := Nat.le_max_right ..
  have cwndMin : p.cwndMin ≤ p.widest := by
    unfold CcParams.widest
    omega
  have peak : p.widest + p.cwndInc ≤ p.peak := Nat.le_max_right ..
  obtain ⟨wrapped, truncated⟩ := h.sound
  have raised (cc' : CongestionControl) (most : cc'.cwnd ≤ p.widest + p.cwndInc)
      (rtt : cc'.inSlowStart = true → cc'.minRttUsec ≤ cc'.ewmaRttUsec)
      (sound : cc'.wrapped = false ∧ cc'.truncated = false) :
      ({ cc' with cwnd := max cc'.cwnd p.cwndMin } : CongestionControl).Updated p :=
    ⟨minimum.trans (Nat.le_max_right ..), (Nat.max_le.mpr ⟨most, by omega⟩).trans peak, rtt, sound⟩
  unfold steady
  apply raised
  · split_ifs with far near few
    · -- the queue is longer than delta, so the estimate and delta together are less than the window
      have used : cc.bdp + p.delta < cc.cwnd := by
        unfold CongestionControl.queueUse at use
        split at use <;> omega
      have fits : wrap 64 (cc.bdp + p.delta) = cc.bdp + p.delta := wrap_of_lt (by omega)
      have value : wsub 64 (cc.bdp + p.delta) p.cwndInc = cc.bdp + p.delta - p.cwndInc :=
        wsub_of_le (by omega) (by omega)
      simp only [reduceTo, fits, value]
      omega
    · have value : wsub 64 cc.cwnd p.cwndInc = cc.cwnd - p.cwndInc := wsub_of_le (by omega) (by omega)
      simp only [reduceTo, value]
      omega
    · exact wrap_le.trans (by omega)
    · omega
  · split_ifs <;> exact h.rtt
  · split_ifs with far near few
    · have used : cc.bdp + p.delta < cc.cwnd := by
        unfold CongestionControl.queueUse at use
        split at use <;> omega
      have fits : wrap 64 (cc.bdp + p.delta) = cc.bdp + p.delta := wrap_of_lt (by omega)
      simp only [reduceTo, fits, wrapped, truncated, Bool.false_or, decide_eq_false_iff_not, and_true]
      omega
    · simp only [reduceTo, wrapped, truncated, Bool.false_or, decide_eq_false_iff_not, and_true]
      omega
    · exact ⟨wrapped, truncated⟩
    · exact ⟨wrapped, truncated⟩

theorem sendmePerCwnd_lt (range : p.InRange) (tuned : p.Tuned) (peak : cc.cwnd ≤ p.peak) :
    cc.sendmePerCwnd p < 2 ^ 16 := by
  have counters := tuned.counters
  have pos := range.sendmeInc.1
  have le : wrap 64 (cc.cwnd + p.sendmeInc / 2) ≤ p.peak + p.sendmeInc / 2 := wrap_le.trans (by omega)
  exact (Nat.div_le_div_right le).trans_lt counters

theorem cwndUpdateRate_lt (range : p.InRange) (tuned : p.Tuned) (peak : cc.cwnd ≤ p.peak) :
    cc.cwndUpdateRate p < 2 ^ 16 := by
  have counters := tuned.counters
  have pos := range.sendmeInc.1
  have rate := range.cwndIncRate.1
  unfold cwndUpdateRate
  split
  · decide
  · rw [Nat.div_lt_iff_lt_mul (Nat.mul_pos rate pos)]
    rw [Nat.div_lt_iff_lt_mul pos] at counters
    have le : wrap 64 (cc.cwnd + p.cwndIncRate * p.sendmeInc / 2) ≤
        cc.cwnd + p.cwndIncRate * p.sendmeInc / 2 := wrap_le
    obtain ⟨r, eq⟩ : ∃ r, p.cwndIncRate = r + 1 := ⟨p.cwndIncRate - 1, by omega⟩
    have split : p.cwndIncRate * p.sendmeInc = r * p.sendmeInc + p.sendmeInc := by rw [eq, Nat.succ_mul]
    rw [split] at le ⊢
    have half : (r * p.sendmeInc + p.sendmeInc) / 2 ≤ r * p.sendmeInc + p.sendmeInc / 2 := by omega
    omega

theorem resetEvents_truncated (range : p.InRange) (tuned : p.Tuned) (peak : cc.cwnd ≤ p.peak)
    (sound : cc.truncated = false) : (cc.resetEvents p).truncated = false := by
  have perCwnd := sendmePerCwnd_lt range tuned peak
  have rate := cwndUpdateRate_lt range tuned peak
  unfold resetEvents
  dsimp only
  split_ifs
  · simp only [sound, Bool.false_or, Bool.or_eq_false_iff, decide_eq_false_iff_not, Nat.not_le]
    exact ⟨perCwnd, rate⟩
  · simp only [sound, Bool.false_or, decide_eq_false_iff_not, Nat.not_le]
    exact perCwnd
  · simp only [sound, Bool.false_or, decide_eq_false_iff_not, Nat.not_le]
    exact rate
  · exact sound

theorem resetEvents_flags (p : CcParams) (cc : CongestionControl) :
    (cc.resetEvents p).inSlowStart = cc.inSlowStart ∧
    (cc.resetEvents p).minRttUsec = cc.minRttUsec ∧ (cc.resetEvents p).ewmaRttUsec = cc.ewmaRttUsec ∧
    (cc.resetEvents p).wrapped = cc.wrapped := by
  unfold resetEvents
  dsimp only
  split_ifs <;> exact ⟨rfl, rfl, rfl, rfl⟩

theorem Updated.resetEvents (range : p.InRange) (tuned : p.Tuned) (h : cc.Updated p) :
    (cc.resetEvents p).Updated p := by
  obtain ⟨-, cwnd, -⟩ := resetEvents_frame p cc
  obtain ⟨slow, least, average, wrapped⟩ := resetEvents_flags p cc
  refine ⟨cwnd ▸ h.least, cwnd ▸ h.peak, fun isSlow => ?_, wrapped.trans h.sound.1,
    resetEvents_truncated range tuned h.peak h.sound.2⟩
  rw [least, average]
  exact h.rtt (slow ▸ isSlow)

theorem InWindow.updateFull (h : cc.InWindow p) : (cc.updateFull p).InWindow p := by
  unfold CongestionControl.updateFull
  split_ifs
  · exact ⟨h.least, h.widest, h.rtt, h.sound⟩
  · exact ⟨h.least, h.widest, h.rtt, h.sound⟩
  · exact h

theorem updateFull_bdp (p : CcParams) (cc : CongestionControl) :
    (cc.updateFull p).bdp = cc.bdp ∧ (cc.updateFull p).inSlowStart = cc.inSlowStart := by
  unfold CongestionControl.updateFull
  split_ifs <;> exact ⟨rfl, rfl⟩

theorem updateWindow_updated (range : p.InRange) (tuned : p.Tuned) (h : cc.InWindow p)
    (bdp : cc.inSlowStart = true → cc.bdp ≤ p.widest) : (cc.updateWindow p).Updated p := by
  have full := h.updateFull
  obtain ⟨sameBdp, sameSlow⟩ := updateFull_bdp p cc
  have sameCwnd := (updateFull_frame p cc).2.1
  have use : cc.queueUse = (cc.updateFull p).queueUse := by
    unfold CongestionControl.queueUse
    rw [sameBdp, sameCwnd]
  have finished (cc' : CongestionControl) (updated : cc'.Updated p) :
      (if (cc'.resetEvents p).cwndFullReset p then { cc'.resetEvents p with cwndFull := false }
        else cc'.resetEvents p).Updated p := by
    have reset := updated.resetEvents range tuned
    split
    · exact ⟨reset.least, reset.peak, reset.rtt, reset.sound⟩
    · exact reset
  unfold CongestionControl.updateWindow
  apply finished
  split_ifs with slow event
  · refine slowStart_window range tuned full ?_
    rw [sameBdp]
    exact bdp (sameSlow ▸ slow)
  · exact steady_window range tuned full use
  · exact ⟨full.least, full.widest.trans ((Nat.le_add_right ..).trans (Nat.le_max_right ..)), full.rtt, full.sound⟩

theorem InWindow.dispatchCcAlg (range : p.InRange) (tuned : p.Tuned) (h : cc.InWindow p) :
    (cc.dispatchCcAlg p env).InWindow p := by
  have most : p.cwndMax ≤ p.widest := (Nat.le_max_left ..).trans (Nat.le_max_right ..)
  have least : p.least ≤ p.cwndMax := Nat.max_le.mpr
    ⟨(range.sendmeInc.2.trans (by decide)).trans range.cwndMax.1, tuned.cwndMax⟩
  have clamped (cc' : CongestionControl) (least' : p.least ≤ cc'.cwnd)
      (rtt : cc'.inSlowStart = true → cc'.minRttUsec ≤ cc'.ewmaRttUsec)
      (sound : cc'.wrapped = false ∧ cc'.truncated = false) :
      ({ cc' with cwnd := min cc'.cwnd p.cwndMax } : CongestionControl).InWindow p :=
    ⟨Nat.le_min.mpr ⟨least', least⟩, (Nat.min_le_right ..).trans most, rtt, sound⟩
  have counted : ({ cc with nextCcEvent := cc.nextCcEvent - 1, nextCwndEvent := cc.nextCwndEvent - 1 } :
      CongestionControl).InWindow p := ⟨h.least, h.widest, h.rtt, h.sound⟩
  obtain ⟨estimated, bdp⟩ := (counted.updateCircuitRtt env).updateCircuitBdp env
    (CongestionControl.updateCircuitRtt p env { cc with
      nextCcEvent := cc.nextCcEvent - 1, nextCwndEvent := cc.nextCwndEvent - 1 }).2
  unfold CongestionControl.dispatchCcAlg CongestionControl.vegasProcessSendme CongestionControl.updateCircuitEstimates
  dsimp only
  split
  · have updated := updateWindow_updated range tuned estimated bdp
    exact clamped _ updated.least updated.rtt updated.sound
  · exact clamped _ estimated.least estimated.rtt estimated.sound

end CongestionControl
end Window

section Run
variable {c : Circuit} {e e' : Endpoint c.kind}

theorem Endpoint.step_inWindow {ev : Endpoint.Event c.kind} (tuned : c.params.Tuned) (h : e.cc.InWindow c.params)
    (action : e.step c ev = some e') : e'.cc.InWindow c.params := by
  cases ev with
  | data tag now =>
      simp only [Endpoint.step] at action
      split at action
      · cases action
      · obtain rfl := Option.some.inj action
        exact ⟨h.least, h.widest, h.rtt, h.sound⟩
  | other =>
      simp only [Endpoint.step] at action
      split at action
      · cases action
      · obtain rfl := Option.some.inj action
        exact h
  | sendme payload env =>
      simp only [Endpoint.step] at action
      split at action
      · cases action
      · obtain rfl := Option.some.inj action
        unfold Endpoint.processSendme
        dsimp only
        split
        · exact h.dispatchCcAlg c.inRange tuned
        · exact h

theorem Endpoint.step_capped {ev : Endpoint.Event c.kind} (h : 0 < e.accepted → e.cc.cwnd ≤ c.params.cwndMax)
    (action : e.step c ev = some e') : 0 < e'.accepted → e'.cc.cwnd ≤ c.params.cwndMax := by
  cases ev with
  | data tag now =>
      simp only [Endpoint.step] at action
      split at action
      · cases action
      · obtain rfl := Option.some.inj action
        exact h
  | other =>
      simp only [Endpoint.step] at action
      split at action
      · cases action
      · obtain rfl := Option.some.inj action
        exact h
  | sendme payload env =>
      simp only [Endpoint.step] at action
      split at action
      · cases action
      · obtain rfl := Option.some.inj action
        unfold Endpoint.processSendme
        dsimp only
        split
        · exact fun _ => (CongestionControl.dispatchCcAlg_frame c.params env e.cc).2.2
        · exact h

theorem Endpoint.inWindow (tuned : c.params.Tuned) (reach : (machine c).Reach (fun _ _ => True) (new c) e) :
    e.cc.InWindow c.params ∧ (0 < e.accepted → e.cc.cwnd ≤ c.params.cwndMax) := by
  induction reach with
  | refl => exact ⟨CongestionControl.new_inWindow tuned, fun some => absurd some (Nat.lt_irrefl 0)⟩
  | next _ _ action ih => exact ⟨step_inWindow tuned ih.1 action, step_capped ih.2 action⟩

end Run

/-- With parameters in tune, no subtraction from the window goes below zero, no counter is cut, the
window is between an increment and its maximum, and when it is used up an acknowledgement is owed. -/
theorem window_never_wedges {c : Circuit} {e : Endpoint c.kind} (tuned : c.params.Tuned)
    (reach : (Endpoint.machine c).Reach (fun _ _ => True) (.new c) e) (isOpen : e.closed = false) :
    e.cc.wrapped = false ∧ e.cc.truncated = false ∧
      (0 < e.accepted → c.sendmeInc ≤ e.cc.cwnd ∧ e.cc.cwnd ≤ c.params.cwndMax) ∧
      (e.cc.packageWindow = 0 → c.sendmeInc * (e.accepted + 1) ≤ e.sent.length) := by
  obtain ⟨window, capped⟩ := Endpoint.inWindow tuned reach
  have account := (Endpoint.accounted reach isOpen).inflight
  have least : c.sendmeInc ≤ e.cc.cwnd := (Nat.le_max_left ..).trans window.least
  refine ⟨window.sound.1, window.sound.2, fun some => ⟨least, capped some⟩, fun exhausted => ?_⟩
  have more : c.sendmeInc * (e.accepted + 1) = c.sendmeInc * e.accepted + c.sendmeInc := Nat.mul_succ ..
  unfold CongestionControl.packageWindow int32Max at exhausted
  omega

def Circuit.listed (values : List (ParamName × Int)) (sendmeInc : Nat)
    (negotiated : validateSendmeIncrement (fun n => values.lookup n) sendmeInc = true) : Circuit where
  kind := .cgo
  consensus n := values.lookup n
  path := .exit
  sendmeInc := sendmeInc
  negotiated := negotiated
  acceptMinVersion := 0
  usedLegacyHandshake := false

theorem default_window_never_wedges : ∃ e : Endpoint .cgo,
    (Endpoint.machine (.listed [(.cwndMax, 10000), (.sendmeInc, 2)] 2 (by decide))).Reach (fun _ _ => True) (.new _) e ∧
      e.closed = false ∧ 0 < e.accepted ∧ 2 ≤ e.cc.cwnd ∧ e.cc.cwnd ≤ 10000 := by
  obtain ⟨e, reach, isOpen, accepted⟩ := Machine.exists_of_run
    (Endpoint.machine (.listed [(.cwndMax, 10000), (.sendmeInc, 2)] 2 (by decide)))
    (fun _ _ => True) (.new _) (P := fun e => e.closed = false ∧ 0 < e.accepted)
    [.data zeroTag 5, .data zeroTag 6, .sendme (buildCellPayloadV1 zeroTag) ⟨90, true, 0, false⟩] (by decide +kernel)
  have tuned : (Circuit.listed [(.cwndMax, 10000), (.sendmeInc, 2)] 2 (by decide)).params.Tuned := by
    constructor <;> decide
  exact ⟨e, reach, isOpen, accepted, (window_never_wedges tuned reach isOpen).2.2.1 accepted⟩

/-- A step of a thousand cells takes a window of 310 below zero when the channel blocks. -/
theorem blocked_window_wraps : ¬ ∀ (c : Circuit) (e : Endpoint c.kind),
    (Endpoint.machine c).Reach (fun _ _ => True) (.new c) e → e.closed = false →
      e.cc.wrapped = false ∧ e.cc.truncated = false ∧
        (0 < e.accepted → c.sendmeInc ≤ e.cc.cwnd ∧ e.cc.cwnd ≤ c.params.cwndMax) ∧
        (e.cc.packageWindow = 0 → c.sendmeInc * (e.accepted + 1) ≤ e.sent.length) := by
  intro claim
  obtain ⟨e, reach, isOpen, wrapped⟩ := Machine.exists_of_run
    (Endpoint.machine (.listed [(.cwndInc, 1000), (.sendmeInc, 2)] 2 (by decide)))
    (fun _ _ => True) (.new _) (P := fun e => e.closed = false ∧ e.cc.wrapped = true)
    [.data zeroTag 5, .data zeroTag 6, .data zeroTag 7, .data zeroTag 8, .data zeroTag 9, .data zeroTag 10,
      .sendme (buildCellPayloadV1 zeroTag) ⟨90, true, 0, false⟩,
      .sendme (buildCellPayloadV1 zeroTag) ⟨91, false, 0, false⟩,
      .sendme (buildCellPayloadV1 zeroTag) ⟨92, true, 0, false⟩] (by decide +kernel)
  obtain ⟨sound, -⟩ := claim _ e reach isOpen
  rw [wrapped] at sound
  cases sound

end TorJet.Congestion
