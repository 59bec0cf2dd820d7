import TorJet.Congestion.Window

/-!
# The floor of the round trip time

The minimum of the round trip time stays below its average, and so the estimate of the bandwidth-delay product stays
within the window, as long as a reset of the minimum does not raise it above an average that has just fallen.
-/

namespace TorJet.Congestion
open Base

namespace CongestionControl
variable (p : CcParams) (env : Surroundings) (cc : CongestionControl)

/-- The counters as `congestion_control_vegas_process_sendme` leaves them before it measures. -/
def counted : CongestionControl := { cc with nextCcEvent := cc.nextCcEvent - 1, nextCwndEvent := cc.nextCwndEvent - 1 }

def measured : Nat := wsub 64 env.nowUsec (cc.sendmePendingTimestamps.headD 0)

def accepts : Bool := !cc.timeDeltaStalledOrJumped env cc.ewmaRttUsec (cc.measured env)

def newAverage : Nat := nCountEwma (cc.measured env) cc.ewmaRttUsec (cc.nEwmaCount p)

def averaged : CongestionControl :=
  { cc with
    sendmePendingTimestamps := cc.sendmePendingTimestamps.tail
    ewmaRttUsec := cc.newAverage p env
    maxRttUsec := max cc.maxRttUsec (cc.measured env) }

structure RttFloor : Prop where
  floor : cc.accepts env = true →
    (cc.updateCircuitRtt p env).1.minRttUsec ≤ (cc.updateCircuitRtt p env).1.ewmaRttUsec ∧
      (cc.updateCircuitRtt p env).1.ewmaRttUsec ≤ (cc.updateCircuitRtt p env).1.maxRttUsec ∧
      (cc.updateCircuitRtt p env).1.ewmaRttUsec ≠ 0
  bdp : (cc.updateCircuitEstimates p env).1.bdp ≤ (cc.updateCircuitEstimates p env).1.cwnd

structure KeepsFloor : Prop where
  reset : cc.accepts env = true → cc.minRttUsec ≠ 0 → cc.cwnd = p.cwndMin → cc.inSlowStart = false →
    cc.newAverage p env < cc.minRttUsec →
    percentMaxMix (cc.newAverage p env) cc.minRttUsec p.rttResetPct ≤ cc.newAverage p env
  stalled : cc.accepts env = false → cc.ewmaRttUsec = 0 → env.blockedOnChan = true → p.cwndMin ≤ cc.cwnd

instance : Decidable (KeepsFloor p env cc) :=
  decidable_of_iff
    ((cc.accepts env = true → cc.minRttUsec ≠ 0 → cc.cwnd = p.cwndMin → cc.inSlowStart = false →
        cc.newAverage p env < cc.minRttUsec →
        percentMaxMix (cc.newAverage p env) cc.minRttUsec p.rttResetPct ≤ cc.newAverage p env) ∧
      (cc.accepts env = false → cc.ewmaRttUsec = 0 → env.blockedOnChan = true → p.cwndMin ≤ cc.cwnd))
    ⟨fun ⟨reset, stalled⟩ => ⟨reset, stalled⟩, fun keeps => ⟨keeps.reset, keeps.stalled⟩⟩

/-- The times of a circuit whose clock has come to `now`. -/
structure InOrder (now : Nat) : Prop where
  floor : cc.minRttUsec ≤ cc.ewmaRttUsec
  ceiling : cc.ewmaRttUsec ≤ cc.maxRttUsec
  past : cc.maxRttUsec ≤ now
  sent : ∀ t ∈ cc.sendmePendingTimestamps, t ≤ now

structure Averages : Prop where
  most : p.nEwmaMax < 2 ^ 8
  slow : p.nEwmaSs < 2 ^ 8
  reset : p.rttResetPct ≤ 100

section Averages
variable {p env cc} {curr prev n a b pct now : Nat}

theorem nCountEwma_le (some : 1 ≤ n) : nCountEwma curr prev n ≤ max curr prev := by
  rw [nCountEwma]
  split
  · exact Nat.le_max_left _ _
  · apply Nat.div_le_of_le_mul
    apply wrap_le.trans
    have first : 2 * curr ≤ 2 * max curr prev := Nat.mul_le_mul_left 2 (Nat.le_max_left _ _)
    have second : (n - 1) * prev ≤ (n - 1) * max curr prev := Nat.mul_le_mul_left _ (Nat.le_max_right _ _)
    have whole : (n + 1) * max curr prev = 2 * max curr prev + (n - 1) * max curr prev := by
      rw [← Nat.add_mul]
      congr 1
      omega
    omega

theorem nCountEwma_pos (measured : curr ≠ 0) (fits : 2 * curr + (n - 1) * prev < 2 ^ 64) : nCountEwma curr prev n ≠ 0 := by
  rw [nCountEwma]
  split
  · exact measured
  · rename_i some
    rw [wrap_of_lt fits, ← Nat.pos_iff_ne_zero]
    apply Nat.div_pos _ (Nat.succ_pos n)
    have mul : n - 1 ≤ (n - 1) * prev := Nat.le_mul_of_pos_right _ (Nat.pos_of_ne_zero some)
    omega

theorem percentMaxMix_le (le : b ≤ a) (pct_le : pct ≤ 100) : percentMaxMix a b pct ≤ a := by
  rw [percentMaxMix, Nat.max_eq_left le, Nat.min_eq_right le]
  have first : wrap 64 (pct * a) / 100 ≤ pct * a / 100 := Nat.div_le_div_right wrap_le
  have second : wrap 64 ((100 - pct) * b) / 100 ≤ (100 - pct) * a / 100 :=
    Nat.div_le_div_right (wrap_le.trans (Nat.mul_le_mul_left _ le))
  have whole : pct * a + (100 - pct) * a = 100 * a := by
    rw [← Nat.add_mul]
    congr 1
    omega
  have parts : pct * a / 100 + (100 - pct) * a / 100 ≤ a := by omega
  exact wrap_le.trans ((Nat.add_le_add first second).trans parts)

theorem nEwmaCount_range (averages : Averages p) : 2 ≤ cc.nEwmaCount p ∧ cc.nEwmaCount p < 2 ^ 8 := by
  have most := averages.most
  have slow := averages.slow
  unfold nEwmaCount
  split <;> omega

theorem measured_of_accepts (accepted : cc.accepts env = true) : cc.measured env ≠ 0 := by
  intro zero
  rw [accepts, timeDeltaStalledOrJumped, if_pos zero] at accepted
  cases accepted

theorem measured_le (h : cc.InOrder now) (later : now ≤ env.nowUsec) (fits : env.nowUsec < 2 ^ 64) :
    cc.measured env ≤ env.nowUsec := by
  have sent : cc.sendmePendingTimestamps.headD 0 ≤ env.nowUsec := by
    cases times : cc.sendmePendingTimestamps with
    | nil => exact Nat.zero_le _
    | cons t rest => exact (h.sent t (by rw [times]; exact List.mem_cons_self)).trans later
  rw [measured, wsub_of_le sent fits]
  exact Nat.sub_le _ _

end Averages

/-! ## One measurement -/

section Measurement
variable {p env cc} {now : Nat}

theorem updateCircuitRtt_accepted (accepted : cc.accepts env = true) :
    cc.updateCircuitRtt p env = ((averaged p env cc).updateMinRtt p, cc.measured env) := by
  rw [accepts, Bool.not_eq_true'] at accepted
  unfold updateCircuitRtt
  dsimp only
  rw [if_neg]
  · rfl
  · intro stalled
    rw [measured] at accepted
    exact Bool.false_ne_true (accepted.symm.trans stalled)

theorem updateCircuitRtt_rejected (rejected : cc.accepts env = false) :
    cc.updateCircuitRtt p env = ({ cc with sendmePendingTimestamps := cc.sendmePendingTimestamps.tail }, 0) := by
  rw [accepts, Bool.not_eq_false'] at rejected
  unfold updateCircuitRtt
  dsimp only
  rw [if_pos]
  exact rejected

theorem updateMinRtt_times (p : CcParams) (cc : CongestionControl) :
    (cc.updateMinRtt p).ewmaRttUsec = cc.ewmaRttUsec ∧ (cc.updateMinRtt p).maxRttUsec = cc.maxRttUsec := by
  unfold updateMinRtt
  split_ifs <;> exact ⟨rfl, rfl⟩

theorem updateMinRtt_le_iff (p : CcParams) (cc : CongestionControl) :
    (cc.updateMinRtt p).minRttUsec ≤ cc.ewmaRttUsec ↔
      (cc.minRttUsec ≠ 0 → cc.cwnd = p.cwndMin → cc.inSlowStart = false →
        percentMaxMix cc.ewmaRttUsec cc.minRttUsec p.rttResetPct ≤ cc.ewmaRttUsec) := by
  unfold updateMinRtt
  split_ifs with none reset less
  · exact iff_of_true (Nat.le_refl _) fun some => absurd none some
  · have steady : cc.inSlowStart = false := by simpa using reset.2
    exact ⟨fun le _ _ _ => le, fun all => all none reset.1 steady⟩
  · refine iff_of_true (Nat.le_refl _) fun _ atMin steady => absurd ⟨atMin, by simp [steady]⟩ reset
  · refine iff_of_true (Nat.le_of_not_lt less) fun _ atMin steady => absurd ⟨atMin, by simp [steady]⟩ reset

theorem InOrder.accepted (h : cc.InOrder now) (averages : Averages p) (later : now ≤ env.nowUsec)
    (fits : env.nowUsec < 2 ^ 55) (accepted : cc.accepts env = true) :
    (cc.updateCircuitRtt p env).1.ewmaRttUsec ≤ (cc.updateCircuitRtt p env).1.maxRttUsec ∧
      (cc.updateCircuitRtt p env).1.ewmaRttUsec ≠ 0 ∧ (cc.updateCircuitRtt p env).1.maxRttUsec ≤ env.nowUsec := by
  obtain ⟨least, most⟩ := (@nEwmaCount_range _ cc) averages
  have past := h.past.trans later
  have rtt := measured_le h later (by omega)
  rw [updateCircuitRtt_accepted accepted, (updateMinRtt_times p _).1, (updateMinRtt_times p _).2]
  refine ⟨?_, ?_, ?_⟩
  · have average := (@nCountEwma_le (cc.measured env) cc.ewmaRttUsec _) (Nat.le_of_succ_le least)
    have ceiling := h.ceiling
    change cc.newAverage p env ≤ max cc.maxRttUsec (cc.measured env)
    change cc.newAverage p env ≤ _ at average
    omega
  · refine nCountEwma_pos (measured_of_accepts accepted) ?_
    have mul : (cc.nEwmaCount p - 1) * cc.ewmaRttUsec ≤ 255 * 2 ^ 55 :=
      Nat.mul_le_mul (by omega) (h.ceiling.trans (past.trans (Nat.le_of_lt fits)))
    omega
  · exact Nat.max_le.mpr ⟨past, rtt⟩

theorem bdp_le (le : cc.minRttUsec ≤ cc.ewmaRttUsec) : wrap 64 (cc.cwnd * cc.minRttUsec) / cc.ewmaRttUsec ≤ cc.cwnd := by
  apply Nat.div_le_of_le_mul
  rw [Nat.mul_comm cc.ewmaRttUsec]
  exact wrap_le.trans (Nat.mul_le_mul_left _ le)

theorem stalled_bdp_le_iff (rtt : Nat) (none : cc.ewmaRttUsec = 0) :
    (cc.updateCircuitBdp p env rtt).1.bdp ≤ cc.cwnd ↔ (env.blockedOnChan = true → p.cwndMin ≤ cc.cwnd) := by
  rw [updateCircuitBdp, if_pos none]
  dsimp only
  cases env.blockedOnChan with
  | false => simp
  | true =>
      simp only [Bool.not_true, Bool.false_eq_true, if_false, true_imp_iff]
      split
      · exact Iff.rfl
      · omega

theorem bdp_le_of_floor (rtt : Nat) (some : cc.ewmaRttUsec ≠ 0) (le : cc.minRttUsec ≤ cc.ewmaRttUsec) :
    (cc.updateCircuitBdp p env rtt).1.bdp ≤ cc.cwnd := by
  rw [updateCircuitBdp, if_neg some]
  dsimp only
  split
  · exact bdp_le le
  · exact bdp_le le

theorem rttFloor_iff (h : cc.InOrder now) (averages : Averages p) (later : now ≤ env.nowUsec)
    (fits : env.nowUsec < 2 ^ 55) : RttFloor p env cc ↔ KeepsFloor p env cc := by
  have estimates : cc.updateCircuitEstimates p env =
      (cc.updateCircuitRtt p env).1.updateCircuitBdp p env (cc.updateCircuitRtt p env).2 := rfl
  have frame := (updateCircuitBdp_frame p env (cc.updateCircuitRtt p env).1 (cc.updateCircuitRtt p env).2).2.1
  cases decided : cc.accepts env with
  | true =>
      obtain ⟨ceiling, some, -⟩ := h.accepted averages later fits decided
      have floor : (cc.updateCircuitRtt p env).1.minRttUsec ≤ (cc.updateCircuitRtt p env).1.ewmaRttUsec ↔
          (cc.minRttUsec ≠ 0 → cc.cwnd = p.cwndMin → cc.inSlowStart = false →
            percentMaxMix (cc.newAverage p env) cc.minRttUsec p.rttResetPct ≤ cc.newAverage p env) := by
        rw [updateCircuitRtt_accepted decided, (updateMinRtt_times p _).1]
        exact updateMinRtt_le_iff p (averaged p env cc)
      constructor
      · intro kept
        refine ⟨fun _ minimum atMin steady _ => ?_, fun rejected => ?_⟩
        · exact floor.mp (kept.floor decided).1 minimum atMin steady
        · rw [decided] at rejected
          cases rejected
      · intro keeps
        have le := floor.mpr fun minimum atMin steady => by
          by_cases fell : cc.newAverage p env < cc.minRttUsec
          · exact keeps.reset decided minimum atMin steady fell
          · exact percentMaxMix_le (Nat.not_lt.mp fell) averages.reset
        refine ⟨fun _ => ⟨le, ceiling, some⟩, ?_⟩
        rw [estimates, frame]
        exact bdp_le_of_floor _ some le
  | false =>
      have same := updateCircuitRtt_rejected (p := p) decided
      rw [same] at estimates frame
      by_cases none : cc.ewmaRttUsec = 0
      · have stalled := (@stalled_bdp_le_iff p env
          { cc with sendmePendingTimestamps := cc.sendmePendingTimestamps.tail }) 0 none
        constructor
        · intro kept
          refine ⟨fun accepted => ?_, fun _ _ => ?_⟩
          · rw [decided] at accepted
            cases accepted
          · have bdp := kept.bdp
            rw [estimates, frame] at bdp
            exact stalled.mp bdp
        · intro keeps
          refine ⟨fun accepted => ?_, ?_⟩
          · rw [decided] at accepted
            cases accepted
          · rw [estimates, frame]
            exact stalled.mpr (keeps.stalled decided none)
      · refine iff_of_true ⟨fun accepted => ?_, ?_⟩ ⟨fun accepted => ?_, fun _ zero => absurd zero none⟩
        · rw [decided] at accepted
          cases accepted
        · rw [estimates, frame]
          exact (@bdp_le_of_floor _ _ { cc with sendmePendingTimestamps := cc.sendmePendingTimestamps.tail }) 0 none h.floor
        · rw [decided] at accepted
          cases accepted

end Measurement

/-! ## What a SENDME leaves -/

section Frames
variable {p : CcParams} {env : Surroundings} {cc : CongestionControl} {now : Nat}

def SameTimes (cc cc' : CongestionControl) : Prop :=
  cc.minRttUsec = cc'.minRttUsec ∧ cc.ewmaRttUsec = cc'.ewmaRttUsec ∧ cc.maxRttUsec = cc'.maxRttUsec

theorem SameTimes.trans {a b c : CongestionControl} (first : SameTimes a b) (second : SameTimes b c) : SameTimes a c :=
  ⟨first.1.trans second.1, first.2.1.trans second.2.1, first.2.2.trans second.2.2⟩

theorem updateCircuitBdp_times (rtt : Nat) : SameTimes (cc.updateCircuitBdp p env rtt).1 cc := by
  unfold updateCircuitBdp
  dsimp only
  split_ifs <;> exact ⟨rfl, rfl, rfl⟩

theorem slowStart_times (queueUse : Nat) : SameTimes (cc.slowStart p queueUse) cc := by
  unfold slowStart
  dsimp only
  split_ifs <;> exact ⟨rfl, rfl, rfl⟩

theorem steady_times (queueUse : Nat) : SameTimes (cc.steady p queueUse) cc := by
  unfold steady reduceTo
  dsimp only
  split_ifs <;> exact ⟨rfl, rfl, rfl⟩

theorem updateFull_times : SameTimes (cc.updateFull p) cc := by
  unfold updateFull
  split_ifs <;> exact ⟨rfl, rfl, rfl⟩

theorem resetEvents_times : SameTimes (cc.resetEvents p) cc := by
  unfold resetEvents
  dsimp only
  split_ifs <;> exact ⟨rfl, rfl, rfl⟩

theorem updateWindow_times : SameTimes (cc.updateWindow p) cc := by
  have changed (cc' : CongestionControl) (same : SameTimes cc' cc) :
      SameTimes (if (cc'.resetEvents p).cwndFullReset p then { cc'.resetEvents p with cwndFull := false }
        else cc'.resetEvents p) cc := by
    have reset := (@resetEvents_times p cc').trans same
    split
    · exact reset
    · exact reset
  unfold updateWindow
  dsimp only
  apply changed
  split_ifs
  · exact (slowStart_times _).trans updateFull_times
  · exact (steady_times _).trans updateFull_times
  · exact updateFull_times

theorem dispatchCcAlg_times : SameTimes (cc.dispatchCcAlg p env) (cc.counted.updateCircuitRtt p env).1 := by
  have estimates : SameTimes (cc.counted.updateCircuitEstimates p env).1 (cc.counted.updateCircuitRtt p env).1 :=
    updateCircuitBdp_times _
  unfold dispatchCcAlg vegasProcessSendme acked
  dsimp only
  split
  · exact updateWindow_times.trans estimates
  · exact estimates

theorem InOrder.later (h : cc.InOrder now) {now' : Nat} (later : now ≤ now') : cc.InOrder now' :=
  ⟨h.floor, h.ceiling, h.past.trans later, fun t mem => (h.sent t mem).trans later⟩

theorem InOrder.dispatchCcAlg (h : cc.InOrder now) (averages : Averages p) (later : now ≤ env.nowUsec)
    (fits : env.nowUsec < 2 ^ 55) (keeps : KeepsFloor p env cc.counted) : (cc.dispatchCcAlg p env).InOrder env.nowUsec := by
  have counted : cc.counted.InOrder now := ⟨h.floor, h.ceiling, h.past, h.sent⟩
  obtain ⟨minimum, average, maximum⟩ := @dispatchCcAlg_times p env cc
  have times := (dispatchCcAlg_frame p env cc).2.1
  have sent (t : Nat) (mem : t ∈ (cc.dispatchCcAlg p env).sendmePendingTimestamps) : t ≤ env.nowUsec := by
    rw [times] at mem
    exact (h.sent t (List.mem_of_mem_tail mem)).trans later
  cases decided : cc.counted.accepts env with
  | true =>
      have kept := ((rttFloor_iff counted averages later fits).mpr keeps).floor decided
      obtain ⟨ceiling, -, past⟩ := counted.accepted averages later fits decided
      refine ⟨?_, ?_, ?_, sent⟩
      · rw [minimum, average]
        exact kept.1
      · rw [average, maximum]
        exact ceiling
      · rw [maximum]
        exact past
  | false =>
      rw [updateCircuitRtt_rejected decided] at minimum average maximum
      refine ⟨?_, ?_, ?_, sent⟩
      · rw [minimum, average]
        exact h.floor
      · rw [average, maximum]
        exact h.ceiling
      · rw [maximum]
        exact h.past.trans later

theorem InOrder.noteCellSent (h : cc.InOrder now) : (cc.noteCellSent p now).InOrder now := by
  refine ⟨h.floor, h.ceiling, h.past, fun t mem => ?_⟩
  unfold CongestionControl.noteCellSent at mem
  dsimp only at mem
  split at mem
  · rcases List.mem_append.mp mem with old | new
    · exact h.sent t old
    · exact Nat.le_of_eq (List.mem_singleton.mp new)
  · exact h.sent t mem

end Frames
end CongestionControl

/-! ## Runs -/

structure Clocked (k : TagKind) where
  endpoint : Endpoint k
  nsec : Nat

def monotimeAbsoluteUsec (nsec : Nat) : Nat := nsec / 1000

def Endpoint.Event.at {k : TagKind} (usec : Nat) : Endpoint.Event k → Endpoint.Event k
  | .data tag _ => .data tag usec
  | .other => .other
  | .sendme payload env => .sendme payload { env with nowUsec := usec }

namespace Clocked
variable (c : Circuit)

def step (s : Clocked c.kind) (event : Nat × Endpoint.Event c.kind) : Option (Clocked c.kind) :=
  let nsec := s.nsec + event.1
  if 2 ^ 64 ≤ nsec then none
  else (s.endpoint.step c (event.2.at (monotimeAbsoluteUsec nsec))).map (⟨·, nsec⟩)

def machine : Machine (Clocked c.kind) (Nat × Endpoint.Event c.kind) where
  step := step c

def new : Clocked c.kind := ⟨.new c, 0⟩

def Measures (P : CcParams → Surroundings → CongestionControl → Prop) (s : Clocked c.kind)
    (event : Nat × Endpoint.Event c.kind) : Prop :=
  ∀ payload env, event.2.at (monotimeAbsoluteUsec (s.nsec + event.1)) = .sendme payload env →
    s.nsec + event.1 < 2 ^ 64 → s.endpoint.closed = false → s.endpoint.sendmeIsValid c payload = true →
    P c.params env s.endpoint.cc.counted

instance (P : CcParams → Surroundings → CongestionControl → Prop) [∀ p env cc, Decidable (P p env cc)]
    (s : Clocked c.kind) : (event : Nat × Endpoint.Event c.kind) → Decidable (Measures c P s event)
  | (_, .data _ _) => .isTrue fun _ _ here => nomatch here
  | (_, .other) => .isTrue fun _ _ here => nomatch here
  | (elapsed, .sendme payload env) =>
      decidable_of_iff
        (s.nsec + elapsed < 2 ^ 64 → s.endpoint.closed = false → s.endpoint.sendmeIsValid c payload = true →
          P c.params { env with nowUsec := monotimeAbsoluteUsec (s.nsec + elapsed) } s.endpoint.cc.counted)
        ⟨fun holds _ _ here => by cases here; exact holds, fun measures => measures payload _ rfl⟩

section Runs
variable {c} {s t : Clocked c.kind} {event : Nat × Endpoint.Event c.kind}

theorem monotimeAbsoluteUsec_lt {nsec : Nat} (fits : nsec < 2 ^ 64) : monotimeAbsoluteUsec nsec < 2 ^ 55 := by
  unfold monotimeAbsoluteUsec
  omega

theorem monotimeAbsoluteUsec_mono {nsec elapsed : Nat} : monotimeAbsoluteUsec nsec ≤ monotimeAbsoluteUsec (nsec + elapsed) :=
  Nat.div_le_div_right (Nat.le_add_right _ _)

theorem averages (c : Circuit) : CongestionControl.Averages c.params where
  most := wrap_lt
  slow := wrap_lt
  reset := (clampTo_range (by decide)).2

theorem step_inOrder (h : s.endpoint.cc.InOrder (monotimeAbsoluteUsec s.nsec))
    (keeps : Measures c CongestionControl.KeepsFloor s event) (action : (machine c).step s event = some t) :
    t.endpoint.cc.InOrder (monotimeAbsoluteUsec t.nsec) := by
  obtain ⟨elapsed, e⟩ := event
  have later := @monotimeAbsoluteUsec_mono s.nsec elapsed
  change (if 2 ^ 64 ≤ s.nsec + elapsed then none else _) = some t at action
  obtain ⟨fits, moved⟩ := Option.ite_none_left_eq_some.mp action
  obtain ⟨endpoint, stepped, rfl⟩ := Option.map_eq_some_iff.mp moved
  change s.endpoint.step c (e.at (monotimeAbsoluteUsec (s.nsec + elapsed))) = some endpoint at stepped
  change endpoint.cc.InOrder (monotimeAbsoluteUsec (s.nsec + elapsed))
  have short := monotimeAbsoluteUsec_lt (Nat.not_le.mp fits)
  cases e with
  | data tag now =>
      obtain ⟨-, ⟨⟩⟩ := Option.ite_none_left_eq_some.mp stepped
      exact (h.later later).noteCellSent
  | other =>
      obtain ⟨-, ⟨⟩⟩ := Option.ite_none_left_eq_some.mp stepped
      exact h.later later
  | sendme payload env =>
      obtain ⟨isOpen, ⟨⟩⟩ := Option.ite_none_left_eq_some.mp stepped
      change (s.endpoint.processSendme c payload _).cc.InOrder _
      unfold Endpoint.processSendme
      dsimp only
      split
      · rename_i valid
        exact h.dispatchCcAlg (averages c) later short
          (keeps payload _ rfl (Nat.not_le.mp fits) (Bool.not_eq_true _ ▸ isOpen) valid)
      · exact h.later later

theorem inOrder (reach : (machine c).Reach (Measures c CongestionControl.KeepsFloor) (new c) s) :
    s.endpoint.cc.InOrder (monotimeAbsoluteUsec s.nsec) := by
  induction reach with
  | refl => exact ⟨Nat.le_refl _, Nat.le_refl _, Nat.zero_le _, fun t mem => absurd mem List.not_mem_nil⟩
  | next _ keeps action ih => exact step_inOrder ih keeps action

end Runs
end Clocked

/-- In a run that keeps the floor, the next measurement keeps the three times in order and the estimate in the window
exactly when it keeps the floor too. -/
theorem rtt_floor {c : Circuit} {s : Clocked c.kind}
    (reach : (Clocked.machine c).Reach (Clocked.Measures c CongestionControl.KeepsFloor) (.new c) s)
    (event : Nat × Endpoint.Event c.kind) :
    Clocked.Measures c CongestionControl.RttFloor s event ↔ Clocked.Measures c CongestionControl.KeepsFloor s event := by
  have h := Clocked.inOrder reach
  have iff_floor (payload : Bytes) (env : Surroundings)
      (here : event.2.at (monotimeAbsoluteUsec (s.nsec + event.1)) = .sendme payload env)
      (fits : s.nsec + event.1 < 2 ^ 64) :
      CongestionControl.RttFloor c.params env s.endpoint.cc.counted ↔
        CongestionControl.KeepsFloor c.params env s.endpoint.cc.counted := by
    have usec : env.nowUsec = monotimeAbsoluteUsec (s.nsec + event.1) := by
      cases kind : event.2 with
      | data tag now => rw [kind] at here; cases here
      | other => rw [kind] at here; cases here
      | sendme payload' env' => rw [kind] at here; cases here; rfl
    have counted : s.endpoint.cc.counted.InOrder (monotimeAbsoluteUsec s.nsec) :=
      ⟨h.floor, h.ceiling, h.past, h.sent⟩
    refine CongestionControl.rttFloor_iff counted (Clocked.averages c) ?_ ?_
    · rw [usec]
      exact Clocked.monotimeAbsoluteUsec_mono
    · rw [usec]
      exact Clocked.monotimeAbsoluteUsec_lt fits
  constructor
  · intro kept payload env here fits isOpen valid
    exact (iff_floor payload env here fits).mp (kept payload env here fits isOpen valid)
  · intro keeps payload env here fits isOpen valid
    exact (iff_floor payload env here fits).mpr (keeps payload env here fits isOpen valid)

def floored : Circuit := .listed [(.gamma .exit, 0), (.sendmeInc, 2)] 2 (by decide)

def delayed : List (Nat × Endpoint.Event .cgo) :=
  [(0, .data zeroTag 0), (0, .data zeroTag 0), (2900000, .data zeroTag 0), (0, .data zeroTag 0),
    (100000, .sendme (buildCellPayloadV1 zeroTag) ⟨0, false, 0, false⟩)]

def acknowledgement : Nat × Endpoint.Event .cgo := (0, .sendme (buildCellPayloadV1 zeroTag) ⟨0, false, 0, false⟩)

theorem first_measurement_floor : ∃ s : Clocked floored.kind,
    (Clocked.machine floored).Reach (Clocked.Measures floored CongestionControl.KeepsFloor) (.new floored) s ∧
      s.endpoint.accepted = 1 ∧
      (Clocked.Measures floored CongestionControl.RttFloor s acknowledgement ↔
        Clocked.Measures floored CongestionControl.KeepsFloor s acknowledgement) := by
  obtain ⟨s, reach, accepted⟩ := Machine.exists_of_run (Clocked.machine floored)
    (Clocked.Measures floored CongestionControl.KeepsFloor) (.new floored)
    (P := fun s => s.endpoint.accepted = 1) delayed (by decide +kernel)
  exact ⟨s, reach, accepted, rtt_floor reach acknowledgement⟩

/-- The second acknowledgement takes the average from 3000 to 1066, and the minimum is reset to 3000. -/
theorem reset_raises_minimum : ¬ ∀ (c : Circuit) (s : Clocked c.kind) (event : Nat × Endpoint.Event c.kind),
    (Clocked.machine c).Reach (fun _ _ => True) (.new c) s → Clocked.Measures c CongestionControl.RttFloor s event := by
  intro all
  let env (s : Clocked floored.kind) : Surroundings := ⟨monotimeAbsoluteUsec (s.nsec + 0), false, 0, false⟩
  obtain ⟨s, reach, fits, isOpen, valid, accepted, above⟩ := Machine.exists_of_run (Clocked.machine floored)
    (fun _ _ => True) (.new floored)
    (P := fun s => s.nsec + 0 < 2 ^ 64 ∧ s.endpoint.closed = false ∧
      s.endpoint.sendmeIsValid floored (buildCellPayloadV1 zeroTag) = true ∧
      s.endpoint.cc.counted.accepts (env s) = true ∧
      (s.endpoint.cc.counted.updateCircuitRtt floored.params (env s)).1.ewmaRttUsec <
        (s.endpoint.cc.counted.updateCircuitRtt floored.params (env s)).1.minRttUsec) delayed (by decide +kernel)
  have floor := (all floored s acknowledgement reach (buildCellPayloadV1 zeroTag) (env s) rfl fits isOpen valid).floor accepted
  exact absurd floor.1 (Nat.not_le.mpr above)

end TorJet.Congestion
