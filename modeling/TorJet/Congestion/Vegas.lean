import TorJet.Base.Bits

/-!
# Congestion control of a circuit

`congestion_control_t` with the parameters it takes from the consensus, and what one SENDME does to it:
`congestion_control_dispatch_cc_alg`, which runs TOR_VEGAS.
-/

namespace TorJet.Congestion
open Base

/-- `cc_path_t`, which decides by which names the parameters of the algorithm are looked up. -/
inductive CcPath
  | sbws | exit | onion | onionSos | onionVg
  deriving DecidableEq, Repr

/-- The names that `congestion_control_vegas_set_params` looks up, for each kind of path. -/
inductive PathKind
  | sbws | exit | onion
  deriving DecidableEq, Repr

def CcPath.kind : CcPath → PathKind
  | .sbws => .sbws
  | .exit | .onionSos => .exit
  | .onion | .onionVg => .onion

inductive ParamName
  | cwndInit | cwndIncPctSs | cwndInc | cwndIncRate | cwndMin | cwndMax
  | sscap (k : PathKind) | ssMax
  | alpha (k : PathKind) | beta (k : PathKind) | gamma (k : PathKind) | delta (k : PathKind)
  | cwndFullMinpct | cwndFullGap | cwndFullPerCwnd
  | rttResetPct | sendmeInc | ewmaCwndPct | ewmaMax | ewmaSs
  | xoffExit | xonChangePct | xonRate | xonEwmaCnt
  deriving DecidableEq, Repr

def Consensus := ParamName → Option Int

def networkstatusGetParam (c : Consensus) (name : ParamName) (default lo hi : Nat) : Nat :=
  clampTo lo hi ((c name).getD default)

def int32Max : Nat := 2 ^ 31 - 1

def tlsRecordMaxCells : Nat := 31

def outbufCells : Nat := 2 * tlsRecordMaxCells

def ssCapDefault : PathKind → Nat
  | .sbws => 400 | .exit => 600 | .onion => 475

def alphaDefault : PathKind → Nat
  | .sbws => 2 * outbufCells - tlsRecordMaxCells | .exit => 3 * outbufCells | .onion => 3 * outbufCells

def betaDefault : PathKind → Nat
  | .sbws => 2 * outbufCells + tlsRecordMaxCells | .exit => 4 * outbufCells | .onion => 6 * outbufCells

def gammaDefault : PathKind → Nat
  | .sbws => 2 * outbufCells | .exit => 3 * outbufCells | .onion => 4 * outbufCells

def deltaDefault : PathKind → Nat
  | .sbws => 4 * outbufCells | .exit => 5 * outbufCells | .onion => 7 * outbufCells

structure CcParams where
  sendmeInc : Nat
  cwndInit : Nat
  cwndIncPctSs : Nat
  cwndInc : Nat
  cwndIncRate : Nat
  cwndMin : Nat
  cwndMax : Nat
  ssCwndCap : Nat
  ssCwndMax : Nat
  alpha : Nat
  beta : Nat
  gamma : Nat
  delta : Nat
  cwndFullMinpct : Nat
  cwndFullGap : Nat
  cwndFullPerCwnd : Nat
  rttResetPct : Nat
  nEwmaCwndPct : Nat
  nEwmaMax : Nat
  nEwmaSs : Nat
  deriving DecidableEq, Repr

/-- `congestion_control_init_params`, `congestion_control_vegas_set_params` and
`congestion_control_new_consensus_params`. A field that is narrower than its range cuts the value. -/
def initParams (c : Consensus) (path : CcPath) (sendmeInc : Nat) : CcParams where
  sendmeInc := sendmeInc
  cwndInit := networkstatusGetParam c .cwndInit (4 * tlsRecordMaxCells) tlsRecordMaxCells 10000
  cwndIncPctSs := networkstatusGetParam c .cwndIncPctSs 100 1 500
  cwndInc := networkstatusGetParam c .cwndInc 1 1 1000
  cwndIncRate := networkstatusGetParam c .cwndIncRate tlsRecordMaxCells 1 250
  cwndMin := networkstatusGetParam c .cwndMin (4 * tlsRecordMaxCells) tlsRecordMaxCells 1000
  cwndMax := networkstatusGetParam c .cwndMax int32Max 500 int32Max
  ssCwndCap := networkstatusGetParam c (.sscap path.kind) (ssCapDefault path.kind) 100 int32Max
  ssCwndMax := networkstatusGetParam c .ssMax 5000 500 int32Max
  alpha := networkstatusGetParam c (.alpha path.kind) (alphaDefault path.kind) 0 1000
  beta := networkstatusGetParam c (.beta path.kind) (betaDefault path.kind) 0 1000
  gamma := networkstatusGetParam c (.gamma path.kind) (gammaDefault path.kind) 0 1000
  delta := wrap 16 (networkstatusGetParam c (.delta path.kind) (deltaDefault path.kind) 0 int32Max)
  cwndFullMinpct := networkstatusGetParam c .cwndFullMinpct 25 0 100
  cwndFullGap := networkstatusGetParam c .cwndFullGap 4 0 (2 ^ 15 - 1)
  cwndFullPerCwnd := networkstatusGetParam c .cwndFullPerCwnd 1 0 1
  rttResetPct := networkstatusGetParam c .rttResetPct 100 0 100
  nEwmaCwndPct := networkstatusGetParam c .ewmaCwndPct 50 1 255
  nEwmaMax := wrap 8 (networkstatusGetParam c .ewmaMax 10 2 int32Max)
  nEwmaSs := wrap 8 (networkstatusGetParam c .ewmaSs 2 2 int32Max)

def ccSendmeInc (c : Consensus) : Nat := networkstatusGetParam c .sendmeInc tlsRecordMaxCells 1 254

def validateSendmeIncrement (c : Consensus) (sendmeInc : Nat) : Bool :=
  sendmeInc ≠ 0 ∧ sendmeInc ≤ ccSendmeInc c + 1 ∧ ccSendmeInc c ≤ sendmeInc + 1

/-- `congestion_control_t`, less its parameters. The last two fields only record what happened. -/
structure CongestionControl where
  sendmePendingTimestamps : List Nat
  ewmaRttUsec : Nat
  minRttUsec : Nat
  maxRttUsec : Nat
  bdp : Nat
  cwnd : Nat
  inflight : Nat
  nextCcEvent : Nat
  nextCwndEvent : Nat
  inSlowStart : Bool
  cwndFull : Bool
  blockedChan : Bool
  wrapped : Bool
  truncated : Bool
  deriving DecidableEq, Repr

structure Surroundings where
  nowUsec : Nat
  blockedOnChan : Bool
  chanQ : Nat
  clockBroken : Bool
  deriving DecidableEq, Repr

namespace CongestionControl
variable (p : CcParams) (env : Surroundings) (cc : CongestionControl)

def cwndUpdateRate : Nat :=
  if cc.inSlowStart then 1
  else wrap 64 (cc.cwnd + p.cwndIncRate * p.sendmeInc / 2) / (p.cwndIncRate * p.sendmeInc)

def sendmePerCwnd : Nat := wrap 64 (cc.cwnd + p.sendmeInc / 2) / p.sendmeInc

def new : CongestionControl where
  sendmePendingTimestamps := []
  ewmaRttUsec := 0
  minRttUsec := 0
  maxRttUsec := 0
  bdp := 0
  cwnd := p.cwndInit
  inflight := 0
  nextCcEvent := 1
  nextCwndEvent := 0
  inSlowStart := true
  cwndFull := false
  blockedChan := false
  wrapped := false
  truncated := false

def nEwmaCount : Nat :=
  max (if cc.inSlowStart then p.nEwmaSs
    else min (wrap 64 (cc.cwndUpdateRate p * p.nEwmaCwndPct) / 100) p.nEwmaMax) 2

def nCountEwma (curr prev n : Nat) : Nat :=
  if prev = 0 then curr else wrap 64 (2 * curr + (n - 1) * prev) / (n + 1)

def percentMaxMix (a b pctMax : Nat) : Nat :=
  wrap 64 (wrap 64 (pctMax * max a b) / 100 + wrap 64 ((100 - pctMax) * min a b) / 100)

def deltaDiscrepencyRatioMax : Nat := 5000

def timeDeltaStalledOrJumped (oldDelta newDelta : Nat) : Bool :=
  if newDelta = 0 then true
  else if cc.inSlowStart || cc.ewmaRttUsec = 0 then false
  else if wrap 64 (newDelta * deltaDiscrepencyRatioMax) < oldDelta then env.clockBroken
  else wrap 64 (oldDelta * deltaDiscrepencyRatioMax) < newDelta

def updateMinRtt : CongestionControl :=
  if cc.minRttUsec = 0 then { cc with minRttUsec := cc.ewmaRttUsec }
  else if cc.cwnd = p.cwndMin ∧ !cc.inSlowStart then
    { cc with minRttUsec := percentMaxMix cc.ewmaRttUsec cc.minRttUsec p.rttResetPct }
  else if cc.ewmaRttUsec < cc.minRttUsec then { cc with minRttUsec := cc.ewmaRttUsec }
  else cc

/-- `congestion_control_update_circuit_rtt`, with the round trip time that it returns. -/
def updateCircuitRtt : CongestionControl × Nat :=
  let rtt := wsub 64 env.nowUsec (cc.sendmePendingTimestamps.headD 0)
  let cc := { cc with sendmePendingTimestamps := cc.sendmePendingTimestamps.tail }
  if cc.timeDeltaStalledOrJumped env cc.ewmaRttUsec rtt then (cc, 0)
  else
    let cc := { cc with ewmaRttUsec := nCountEwma rtt cc.ewmaRttUsec (cc.nEwmaCount p) }
    let cc := { cc with maxRttUsec := max cc.maxRttUsec rtt }
    (cc.updateMinRtt p, rtt)

/-- `congestion_control_update_circuit_bdp`, with what it returns. -/
def updateCircuitBdp (currRtt : Nat) : CongestionControl × Bool :=
  if cc.ewmaRttUsec = 0 then
    let cwnd :=
      if !env.blockedOnChan then cc.cwnd
      else if cc.cwnd ≤ env.chanQ then p.cwndMin
      else max (cc.cwnd - env.chanQ) p.cwndMin
    ({ cc with blockedChan := env.blockedOnChan, bdp := cwnd }, env.blockedOnChan)
  else
    let cc := { cc with bdp := wrap 64 (cc.cwnd * cc.minRttUsec) / cc.ewmaRttUsec }
    -- a channel that becomes blocked or unblocked is a congestion event of its own
    let cc :=
      if env.blockedOnChan = cc.blockedChan then cc
      else { cc with nextCcEvent := 0, blockedChan := env.blockedOnChan }
    (cc, env.blockedOnChan || currRtt ≠ 0)

def updateCircuitEstimates : CongestionControl × Bool :=
  let (cc, rtt) := cc.updateCircuitRtt p env
  cc.updateCircuitBdp p env rtt

def rfc3742SsInc : Nat :=
  if cc.cwnd ≤ p.ssCwndCap then (p.cwndIncPctSs * p.sendmeInc + 50) / 100
  else max (wrap 64 (p.sendmeInc * p.ssCwndCap + cc.cwnd) / (2 * cc.cwnd)) 1

/-- `cwnd_became_full` and `cwnd_became_nonfull`. -/
def updateFull : CongestionControl :=
  if cc.cwnd ≤ wrap 64 (cc.inflight + p.cwndFullGap * p.sendmeInc) then { cc with cwndFull := true }
  else if wrap 64 (100 * cc.inflight) < wrap 64 (p.cwndFullMinpct * cc.cwnd) then { cc with cwndFull := false }
  else cc

def reduceTo (from_ by_ : Nat) : CongestionControl :=
  { cc with cwnd := wsub 64 from_ by_, wrapped := cc.wrapped || from_ < by_ }

def slowStart (queueUse : Nat) : CongestionControl :=
  let cc :=
    if queueUse < p.gamma ∧ !cc.blockedChan then
      if cc.cwndFull then
        let inc := cc.rfc3742SsInc p
        let cc := { cc with cwnd := wrap 64 (cc.cwnd + inc) }
        if wrap 64 (inc * cc.sendmePerCwnd p) ≤ p.cwndInc * p.cwndIncRate then { cc with inSlowStart := false }
        else cc
      else cc
    else { cc with cwnd := wrap 64 (cc.bdp + p.gamma), inSlowStart := false }
  if p.ssCwndMax ≤ cc.cwnd then { cc with cwnd := p.ssCwndMax, inSlowStart := false } else cc

def steady (queueUse : Nat) : CongestionControl :=
  let cc :=
    if p.delta < queueUse then cc.reduceTo (wrap 64 (cc.bdp + p.delta)) p.cwndInc
    else if p.beta < queueUse ∨ cc.blockedChan then cc.reduceTo cc.cwnd p.cwndInc
    else if cc.cwndFull ∧ queueUse < p.alpha then { cc with cwnd := wrap 64 (cc.cwnd + p.cwndInc) }
    else cc
  { cc with cwnd := max cc.cwnd p.cwndMin }

def resetEvents : CongestionControl :=
  let cc :=
    if cc.nextCwndEvent = 0 then
      { cc with nextCwndEvent := wrap 16 (cc.sendmePerCwnd p)
                truncated := cc.truncated || 2 ^ 16 ≤ cc.sendmePerCwnd p }
    else cc
  if cc.nextCcEvent = 0 then
    { cc with nextCcEvent := wrap 16 (cc.cwndUpdateRate p)
              truncated := cc.truncated || 2 ^ 16 ≤ cc.cwndUpdateRate p }
  else cc

def cwndFullReset : Bool :=
  if p.cwndFullPerCwnd ≠ 0 then cc.nextCwndEvent = cc.sendmePerCwnd p
  else cc.nextCcEvent = cc.cwndUpdateRate p

def acked : CongestionControl := { cc with inflight := wsub 64 cc.inflight p.sendmeInc }

def queueUse : Nat := if cc.cwnd < cc.bdp then 0 else cc.cwnd - cc.bdp

def updateWindow : CongestionControl :=
  let queueUse := cc.queueUse
  let cc := cc.updateFull p
  let cc :=
    if cc.inSlowStart then cc.slowStart p queueUse
    else if cc.nextCcEvent = 0 then cc.steady p queueUse
    else cc
  let cc := cc.resetEvents p
  if cc.cwndFullReset p then { cc with cwndFull := false } else cc

def vegasProcessSendme : CongestionControl :=
  let cc := { cc with nextCcEvent := cc.nextCcEvent - 1, nextCwndEvent := cc.nextCwndEvent - 1 }
  let (cc, updated) := cc.updateCircuitEstimates p env
  if updated then (cc.updateWindow p).acked p else cc.acked p

def dispatchCcAlg : CongestionControl :=
  let cc := cc.vegasProcessSendme p env
  { cc with cwnd := min cc.cwnd p.cwndMax }

/-- `congestion_control_get_package_window`, for a circuit with congestion control. -/
def packageWindow : Nat := min (cc.cwnd - cc.inflight) int32Max

def sentCellForSendme : Bool := cc.inflight ≠ 0 ∧ wrap 64 (cc.inflight + 1) % p.sendmeInc = 0

def noteCellSent (nowUsec : Nat) : CongestionControl :=
  { cc with inflight := wrap 64 (cc.inflight + 1)
            sendmePendingTimestamps :=
              if cc.sentCellForSendme p then cc.sendmePendingTimestamps ++ [nowUsec]
              else cc.sendmePendingTimestamps }

end CongestionControl
end TorJet.Congestion
