import Mathlib.Data.List.Basic
import Mathlib.Algebra.Order.Ring.Nat
import TorJet.Base.Machine
import TorJet.Congestion.Vegas

/-!
# XON and XOFF

A stream from a client to an exit. The exit stops the client when too much is buffered, and the
client checks that the stops are not more than its bytes can have caused.
-/

namespace TorJet.Congestion
open Base

def relayPayloadSizeMax : Nat := 498

/-- `RELAY_PAYLOAD_SIZE_MIN`, with the larger header. -/
def relayPayloadSizeMin : Nat := 488

structure FlowParams where
  xoffExit : Nat
  xonChangePct : Nat
  xonRateBytes : Nat
  xonEwmaCnt : Nat
  deriving DecidableEq, Repr

def flowControlNewConsensusParams (c : Consensus) : FlowParams where
  xoffExit := networkstatusGetParam c .xoffExit 500 1 10000 * relayPayloadSizeMin
  xonChangePct := networkstatusGetParam c .xonChangePct 25 1 99
  xonRateBytes := networkstatusGetParam c .xonRate 500 1 5000 * relayPayloadSizeMax
  xonEwmaCnt := networkstatusGetParam c .xonEwmaCnt 2 2 100

def maxExpectedCellBurst : Nat := 32
def xoffGracePeriodUsec : Nat := 5000
def xonCountScaleAt : Nat := 200
def xoffCountScaleAt : Nat := 200
def totalXmitScaleAt : Nat := 10 * 2 ^ 20

inductive Command
  | xon | xoff
  deriving DecidableEq, Repr

structure ClientStream where
  totalBytesXmit : Nat
  numXoffRecv : Nat
  numXonRecv : Nat
  xoffReceived : Bool
  deriving DecidableEq, Repr

namespace ClientStream
variable (p : FlowParams) (c : ClientStream)

def scaleDown : ClientStream :=
  { c with
    totalBytesXmit := c.totalBytesXmit / 2
    numXoffRecv := c.numXoffRecv / 2
    numXonRecv := c.numXonRecv / 2 }

def noteScales (len : Nat) : Bool := wsub 64 totalXmitScaleAt len ≤ c.totalBytesXmit

def flowControlNoteSentData (len : Nat) : ClientStream :=
  let c := if c.noteScales len then c.scaleDown else c
  { c with totalBytesXmit := wrap 32 (c.totalBytesXmit + len) }

/-- `circuit_process_stream_xoff`, with what it returns. -/
def processStreamXoff : ClientStream × Bool :=
  if c.xoffReceived then (c, false)
  else
    let c := if c.numXoffRecv = xoffCountScaleAt then c.scaleDown else c
    let c := { c with numXoffRecv := wrap 8 (c.numXoffRecv + 1) }
    ({ c with xoffReceived := true }, !(c.totalBytesXmit < wrap 32 (p.xoffExit * c.numXoffRecv) : Bool))

/-- `circuit_process_stream_xon`. What it returns and the rate it sets are for other code. -/
def processStreamXon : ClientStream :=
  let c := if c.numXonRecv = xonCountScaleAt then c.scaleDown else c
  { c with numXonRecv := wrap 8 (c.numXonRecv + 1), xoffReceived := false }

end ClientStream

structure ExitStream where
  outbufLen : Nat
  xoffSent : Bool
  xoffGracePeriodStartUsec : Nat
  drainStartUsec : Nat
  drainedBytes : Nat
  prevDrainedBytes : Nat
  ewmaDrainRate : Nat
  ewmaRateLastSent : Nat
  deriving DecidableEq, Repr

structure Clock where
  nowUsec : Nat
  reliable : Bool
  deriving DecidableEq, Repr

namespace ExitStream
variable (p : FlowParams) (clock : Clock) (s : ExitStream)

def buffer (len : Nat) : ExitStream := { s with outbufLen := s.outbufLen + len }

def write (n : Nat) : ExitStream := { s with outbufLen := s.outbufLen - n }

def computeDrainRate : Nat :=
  let delta := wsub 64 clock.nowUsec s.drainStartUsec
  if !clock.reliable ∨ delta = 0 then 0
  else if s.prevDrainedBytes > int32Max / 1000 ∨ s.prevDrainedBytes / delta > int32Max / 1000 then int32Max
  else max 1 (wrap 32 (s.prevDrainedBytes * 1000) / delta)

def drainRateChanged : Bool :=
  clock.reliable && s.ewmaRateLastSent ≠ 0 &&
    (s.ewmaDrainRate > (100 + p.xonChangePct) * s.ewmaRateLastSent / 100 ||
      s.ewmaDrainRate < (100 - p.xonChangePct) * s.ewmaRateLastSent / 100)

def countDrained (nWritten : Nat) : ExitStream :=
  let s :=
    if wsub 64 (2 ^ 32 - 1) nWritten ≤ s.drainedBytes then
      { s with
        drainedBytes := s.drainedBytes / 2
        drainStartUsec :=
          if s.drainStartUsec = 0 then 0
          else wsub 64 clock.nowUsec (wsub 64 clock.nowUsec s.drainStartUsec / 2) }
    else s
  { s with drainedBytes := wrap 32 (s.drainedBytes + nWritten) }

def beginBuffering : ExitStream :=
  if !clock.reliable then { s with drainStartUsec := 0, drainedBytes := 0 }
  else if s.drainStartUsec = 0 ∧ 0 < s.outbufLen then
    { s with drainStartUsec := clock.nowUsec, drainedBytes := 0 }
  else s

def updateDrainRate : ExitStream :=
  if s.drainStartUsec = 0 ∨ s.drainedBytes ≤ p.xonRateBytes then s
  else
    let s := if s.prevDrainedBytes = 0 then { s with prevDrainedBytes := s.drainedBytes } else s
    let drainRate := s.computeDrainRate clock
    let s := { s with prevDrainedBytes := s.drainedBytes }
    if drainRate = 0 then s
    else
      { s with
        ewmaDrainRate := wrap 32 (CongestionControl.nCountEwma drainRate s.ewmaDrainRate p.xonEwmaCnt)
        drainedBytes := 0
        drainStartUsec := 0 }

def sendsXon : Bool :=
  if s.xoffSent then s.outbufLen = 0 else s.drainRateChanged p clock

def sendStreamXon : ExitStream := { s with ewmaRateLastSent := s.ewmaDrainRate, xoffSent := false }

def whenEmptied : ExitStream :=
  if s.outbufLen = 0 then
    let s := { s with drainStartUsec := 0 }
    if p.xonRateBytes ≤ s.drainedBytes ∧ s.ewmaRateLastSent ≠ 0 then
      { s with
        ewmaDrainRate := min int32Max (wrap 32 (2 * s.ewmaDrainRate))
        prevDrainedBytes := s.drainedBytes
        drainedBytes := 0 }
    else s
  else s

/-- `flow_control_decide_xon`, with the cell that it sends. -/
def flowControlDecideXon (nWritten : Nat) : ExitStream × List Command :=
  let s := ((s.countDrained clock nWritten).beginBuffering clock).updateDrainRate p clock
  if s.sendsXon p clock then (s.sendStreamXon.whenEmptied p, [.xon]) else (s.whenEmptied p, [])

/-- The grace period of `flow_control_decide_xoff` is over. -/
def sendsXoff : Bool :=
  p.xoffExit < s.outbufLen && !s.xoffSent && s.xoffGracePeriodStartUsec ≠ 0 &&
    wrap 64 (s.xoffGracePeriodStartUsec + xoffGracePeriodUsec) < clock.nowUsec

/-- What `flow_control_decide_xoff` does before it considers an XON. -/
def overLimit : ExitStream :=
  if p.xoffExit < s.outbufLen then
    if s.xoffSent then s
    else if s.xoffGracePeriodStartUsec = 0 then { s with xoffGracePeriodStartUsec := clock.nowUsec }
    else if s.sendsXoff p clock then
      { s with xoffSent := true, ewmaDrainRate := 0, xoffGracePeriodStartUsec := 0 }
    else s
  else { s with xoffGracePeriodStartUsec := 0 }

/-- `flow_control_decide_xoff`, with the cells that it sends. -/
def flowControlDecideXoff : ExitStream × List Command :=
  let xoff := if s.sendsXoff p clock then [.xoff] else []
  let s := s.overLimit p clock
  if maxExpectedCellBurst * relayPayloadSizeMin < s.outbufLen then
    let (s, xon) := s.flowControlDecideXon p clock 0
    (s, xoff ++ xon)
  else (s, xoff)

end ExitStream

structure Stream where
  client : ClientStream
  exit : ExitStream
  toExit : List Nat
  toClient : List Command
  deriving DecidableEq, Repr

inductive StreamEvent
  | package (len : Nat)
  | deliverData (clock : Clock)
  | drain (n : Nat) (clock : Clock)
  | deliverCommand
  deriving DecidableEq, Repr

namespace Stream
variable (p : FlowParams) (s : Stream)

/-- `sendme_stream_data_received` asks for an XOFF before the data of the cell is buffered. -/
def receiveData (clock : Clock) (len : Nat) (rest : List Nat) : Stream :=
  let (exit, sent) := s.exit.flowControlDecideXoff p clock
  { s with
    exit := exit.buffer len
    toExit := rest
    toClient := s.toClient ++ sent }

def drained (n : Nat) (clock : Clock) : Stream :=
  let (exit, sent) := (s.exit.write n).flowControlDecideXon p clock n
  { s with exit, toClient := s.toClient ++ sent }

def step : StreamEvent → Option Stream
  | .package len =>
      if 1 ≤ len ∧ len ≤ relayPayloadSizeMax then
        some { s with client := s.client.flowControlNoteSentData len, toExit := s.toExit ++ [len] }
      else none
  | .deliverData clock =>
      match s.toExit with
      | [] => none
      | len :: rest => some (s.receiveData p clock len rest)
  | .drain n clock => if n ≤ s.exit.outbufLen then some (s.drained p n clock) else none
  | .deliverCommand =>
      match s.toClient with
      | [] => none
      | .xon :: rest => some { s with client := s.client.processStreamXon, toClient := rest }
      | .xoff :: rest => some { s with client := (s.client.processStreamXoff p).1, toClient := rest }

def machine : Machine Stream StreamEvent where
  step := step p

def new : Stream where
  client := ⟨0, 0, 0, false⟩
  exit := ⟨0, false, 0, 0, 0, 0, 0, 0⟩
  toExit := []
  toClient := []

end Stream

def xoffs (cells : List Command) : Nat := cells.count .xoff

def obey : Bool → List Command → Option Bool
  | stopped, [] => some stopped
  | _, .xon :: rest => obey false rest
  | stopped, .xoff :: rest => if stopped then none else obey true rest

theorem obey_append {stopped middle : Bool} {left : List Command} (right : List Command)
    (first : obey stopped left = some middle) : obey stopped (left ++ right) = obey middle right := by
  induction left generalizing stopped with
  | nil =>
      obtain rfl := Option.some.inj first
      rfl
  | cons cell rest ih =>
      cases cell with
      | xon => exact ih first
      | xoff =>
          cases stopped with
          | true => cases first
          | false => exact ih first

namespace ExitStream
variable {p : FlowParams} {clock : Clock} {s t u : ExitStream}

def unanswered (s : ExitStream) : Nat := if s.xoffSent then 0 else s.outbufLen

theorem unanswered_buffer (s : ExitStream) (len : Nat) :
    (s.buffer len).unanswered ≤ s.unanswered + len := by
  unfold unanswered buffer
  cases s.xoffSent with
  | true => simp
  | false => simp

theorem unanswered_write (s : ExitStream) (n : Nat) :
    (s.write n).unanswered ≤ s.unanswered := by
  unfold unanswered write
  cases s.xoffSent with
  | true => simp
  | false => simp

/-- What the exit does before it sends `sent`: every XOFF is paid for by the bytes it answers. -/
structure Answers (p : FlowParams) (s t : ExitStream) (sent : List Command) : Prop where
  outbufLen : t.outbufLen = s.outbufLen
  paid : p.xoffExit * xoffs sent + t.unanswered ≤ s.unanswered
  obeyed : obey s.xoffSent sent = some t.xoffSent

theorem Answers.trans {first second : List Command} (left : Answers p s t first)
    (right : Answers p t u second) : Answers p s u (first ++ second) where
  outbufLen := right.outbufLen.trans left.outbufLen
  paid := by
    have before := left.paid
    have after := right.paid
    simp only [xoffs, List.count_append, Nat.mul_add] at *
    omega
  obeyed := by rw [obey_append second left.obeyed, right.obeyed]

theorem Answers.silent (outbufLen : t.outbufLen = s.outbufLen) (xoffSent : t.xoffSent = s.xoffSent) :
    Answers p s t [] where
  outbufLen := outbufLen
  paid := by simp [xoffs, unanswered, outbufLen, xoffSent]
  obeyed := by simp [obey, xoffSent]

theorem Answers.xon (outbufLen : t.outbufLen = s.outbufLen) (xoffSent : t.xoffSent = false)
    (emptied : s.xoffSent = true → s.outbufLen = 0) : Answers p s t [.xon] where
  outbufLen := outbufLen
  paid := by
    cases stopped : s.xoffSent with
    | true => simp [xoffs, unanswered, outbufLen, xoffSent, stopped, emptied stopped]
    | false => simp [xoffs, unanswered, outbufLen, xoffSent, stopped]
  obeyed := by simp [obey, xoffSent]

theorem Answers.xoff (outbufLen : t.outbufLen = s.outbufLen) (before : s.xoffSent = false)
    (xoffSent : t.xoffSent = true) (full : p.xoffExit ≤ s.outbufLen) : Answers p s t [.xoff] where
  outbufLen := outbufLen
  paid := by simpa [xoffs, unanswered, before, xoffSent] using full
  obeyed := by simp [obey, before, xoffSent]

theorem countDrained_frame (clock : Clock) (s : ExitStream) (n : Nat) :
    (s.countDrained clock n).outbufLen = s.outbufLen ∧ (s.countDrained clock n).xoffSent = s.xoffSent := by
  unfold countDrained
  dsimp only
  split <;> exact ⟨rfl, rfl⟩

theorem beginBuffering_frame (s : ExitStream) :
    (s.beginBuffering clock).outbufLen = s.outbufLen ∧ (s.beginBuffering clock).xoffSent = s.xoffSent := by
  unfold beginBuffering
  split
  · exact ⟨rfl, rfl⟩
  · split <;> exact ⟨rfl, rfl⟩

theorem updateDrainRate_frame (s : ExitStream) :
    (s.updateDrainRate p clock).outbufLen = s.outbufLen ∧
      (s.updateDrainRate p clock).xoffSent = s.xoffSent := by
  unfold updateDrainRate
  dsimp only
  split
  · exact ⟨rfl, rfl⟩
  · split <;> split <;> exact ⟨rfl, rfl⟩

theorem whenEmptied_frame (s : ExitStream) :
    (s.whenEmptied p).outbufLen = s.outbufLen ∧ (s.whenEmptied p).xoffSent = s.xoffSent := by
  unfold whenEmptied
  dsimp only
  split
  · split <;> exact ⟨rfl, rfl⟩
  · exact ⟨rfl, rfl⟩

theorem sendsXon_emptied (sends : s.sendsXon p clock = true) (stopped : s.xoffSent = true) :
    s.outbufLen = 0 := by
  simpa [sendsXon, stopped] using sends

theorem decideXon_answers (s : ExitStream) (n : Nat) :
    Answers p s (s.flowControlDecideXon p clock n).1 (s.flowControlDecideXon p clock n).2 := by
  have rated : Answers p s (((s.countDrained clock n).beginBuffering clock).updateDrainRate p clock) [] := by
    obtain ⟨sameLen, sameSent⟩ := countDrained_frame clock s n
    refine .silent ?_ ?_
    · rw [(updateDrainRate_frame _).1, (beginBuffering_frame _).1, sameLen]
    · rw [(updateDrainRate_frame _).2, (beginBuffering_frame _).2, sameSent]
  apply rated.trans
  unfold flowControlDecideXon
  dsimp only
  split
  · rename_i sends
    apply Answers.xon
    · exact (whenEmptied_frame _).1
    · exact (whenEmptied_frame _).2
    · exact sendsXon_emptied sends
  · exact .silent (whenEmptied_frame _).1 (whenEmptied_frame _).2

theorem sendsXoff_spec (sends : s.sendsXoff p clock = true) :
    p.xoffExit < s.outbufLen ∧ s.xoffSent = false ∧ s.xoffGracePeriodStartUsec ≠ 0 := by
  simp only [sendsXoff, Bool.and_eq_true, decide_eq_true_eq, Bool.not_eq_true'] at sends
  exact ⟨sends.1.1.1, sends.1.1.2, sends.1.2⟩

theorem overLimit_answers (s : ExitStream) :
    Answers p s (s.overLimit p clock) (if s.sendsXoff p clock then [.xoff] else []) := by
  split
  · rename_i sends
    obtain ⟨full, unsent, started⟩ := sendsXoff_spec sends
    have result : s.overLimit p clock =
        { s with xoffSent := true, ewmaDrainRate := 0, xoffGracePeriodStartUsec := 0 } := by
      simp [overLimit, full, unsent, started, sends]
    rw [result]
    exact .xoff rfl unsent rfl full.le
  · rename_i stays
    unfold overLimit
    split
    · split
      · exact .silent rfl rfl
      · split
        · exact .silent rfl rfl
        · exact .silent rfl rfl
    · exact .silent rfl rfl

theorem decideXoff_answers (s : ExitStream) :
    Answers p s (s.flowControlDecideXoff p clock).1 (s.flowControlDecideXoff p clock).2 := by
  have stopped : Answers p s (s.overLimit p clock) (if s.sendsXoff p clock then [.xoff] else []) :=
    overLimit_answers s
  unfold flowControlDecideXoff
  dsimp only
  split
  · exact stopped.trans (decideXon_answers _ 0)
  · exact stopped

end ExitStream

namespace Stream
variable {p : FlowParams} {s t : Stream}

def pending (s : Stream) : Nat := s.toExit.sum + s.exit.unanswered

def scales (s : Stream) : StreamEvent → Bool
  | .package len => s.client.noteScales len
  | .deliverCommand =>
      match s.toClient with
      | .xon :: _ => s.client.numXonRecv = xonCountScaleAt
      | .xoff :: _ => !s.client.xoffReceived && s.client.numXoffRecv = xoffCountScaleAt
      | [] => false
  | .deliverData _ | .drain _ _ => false

def ScalesWell (p : FlowParams) (s : Stream) (e : StreamEvent) : Prop :=
  s.scales e = true →
    p.xoffExit * (s.client.numXoffRecv / 2 + xoffs s.toClient) + s.pending ≤ s.client.totalBytesXmit / 2

instance {e : StreamEvent} : Decidable (ScalesWell p s e) :=
  inferInstanceAs (Decidable (_ → _))

structure Honest (p : FlowParams) (s : Stream) : Prop where
  paid : p.xoffExit * (s.client.numXoffRecv + xoffs s.toClient) + s.pending ≤ s.client.totalBytesXmit
  small : s.client.totalBytesXmit ≤ totalXmitScaleAt
  obeyed : obey s.client.xoffReceived s.toClient = some s.exit.xoffSent

theorem honest_new : Honest p new where
  paid := by simp [new, pending, xoffs, ExitStream.unanswered]
  small := Nat.zero_le _
  obeyed := rfl

theorem noteScales_small {c : ClientStream} {len : Nat} (cell : len ≤ relayPayloadSizeMax)
    (fits : c.noteScales len = false) : c.totalBytesXmit + len ≤ totalXmitScaleAt := by
  have limit : wsub 64 totalXmitScaleAt len = totalXmitScaleAt - len := by
    apply wsub_of_le
    · unfold relayPayloadSizeMax at cell
      unfold totalXmitScaleAt
      omega
    · decide
  simp only [ClientStream.noteScales, limit, decide_eq_false_iff_not] at fits
  omega

theorem honest_package {len : Nat} (honest : Honest p s) (cell : len ≤ relayPayloadSizeMax)
    (ok : ScalesWell p s (.package len)) :
    Honest p { s with client := s.client.flowControlNoteSentData len, toExit := s.toExit ++ [len] } := by
  have paid := honest.paid
  have small := honest.small
  have fits (n : Nat) (le : n ≤ totalXmitScaleAt) : wrap 32 n = n := by
    apply wrap_of_lt
    unfold totalXmitScaleAt at le
    omega
  unfold pending at paid
  cases scaled : s.client.noteScales len with
  | true =>
      have halved := ok scaled
      have room : s.client.totalBytesXmit / 2 + len ≤ totalXmitScaleAt := by
        unfold totalXmitScaleAt relayPayloadSizeMax at *
        omega
      unfold pending at halved
      refine ⟨?_, ?_, ?_⟩
      · simp only [ClientStream.flowControlNoteSentData, scaled, if_true, ClientStream.scaleDown,
          fits _ room, pending, List.sum_append, List.sum_singleton]
        omega
      · simpa only [ClientStream.flowControlNoteSentData, scaled, if_true, ClientStream.scaleDown,
          fits _ room] using room
      · simpa only [ClientStream.flowControlNoteSentData, scaled, if_true, ClientStream.scaleDown]
          using honest.obeyed
  | false =>
      have room := noteScales_small cell scaled
      refine ⟨?_, ?_, ?_⟩
      · simp only [ClientStream.flowControlNoteSentData, scaled, Bool.false_eq_true, if_false,
          fits _ room, pending, List.sum_append, List.sum_singleton]
        omega
      · simpa only [ClientStream.flowControlNoteSentData, scaled, Bool.false_eq_true, if_false,
          fits _ room] using room
      · simpa only [ClientStream.flowControlNoteSentData, scaled, Bool.false_eq_true, if_false]
          using honest.obeyed

theorem Honest.exit {before after : ExitStream} {sent : List Command} (honest : Honest p s)
    (exit : ExitStream) (left : List Nat)
    (answers : ExitStream.Answers p before after sent) (stopped : before.xoffSent = s.exit.xoffSent)
    (same : exit.xoffSent = after.xoffSent)
    (bytes : left.sum + exit.unanswered + before.unanswered ≤ s.pending + after.unanswered) :
    Honest p { s with exit := exit, toExit := left, toClient := s.toClient ++ sent } where
  paid := by
    have paid := honest.paid
    have answered := answers.paid
    simp only [pending, xoffs, List.count_append, Nat.mul_add] at *
    omega
  small := honest.small
  obeyed := by
    show obey s.client.xoffReceived (s.toClient ++ sent) = some exit.xoffSent
    rw [obey_append sent honest.obeyed, ← stopped, answers.obeyed, same]

theorem honest_receiveData {clock : Clock} {len : Nat} {rest : List Nat} (honest : Honest p s)
    (head : s.toExit = len :: rest) : Honest p (s.receiveData p clock len rest) := by
  have answers : ExitStream.Answers p s.exit (s.exit.flowControlDecideXoff p clock).1
      (s.exit.flowControlDecideXoff p clock).2 := ExitStream.decideXoff_answers s.exit
  have buffered := ExitStream.unanswered_buffer (s.exit.flowControlDecideXoff p clock).1 len
  apply honest.exit ((s.exit.flowControlDecideXoff p clock).1.buffer len) rest answers rfl rfl
  simp only [pending, head, List.sum_cons]
  omega

theorem honest_drained {clock : Clock} {n : Nat} (honest : Honest p s) :
    Honest p (s.drained p n clock) := by
  have written := ExitStream.unanswered_write s.exit n
  have answers : ExitStream.Answers p (s.exit.write n) ((s.exit.write n).flowControlDecideXon p clock n).1
      ((s.exit.write n).flowControlDecideXon p clock n).2 := ExitStream.decideXon_answers _ n
  apply honest.exit _ s.toExit answers rfl rfl
  unfold pending
  omega

theorem honest_xon {rest : List Command} (honest : Honest p s) (head : s.toClient = .xon :: rest)
    (ok : ScalesWell p s .deliverCommand) :
    Honest p { s with client := s.client.processStreamXon, toClient := rest } := by
  have paid := honest.paid
  have small := honest.small
  have obeyed := honest.obeyed
  rw [head] at obeyed
  have count : xoffs s.toClient = xoffs rest := by simp [head, xoffs]
  unfold pending at paid
  by_cases scaled : s.client.numXonRecv = xonCountScaleAt
  · have halved := ok (by simp [scales, head, scaled])
    rw [count] at halved
    unfold pending at halved
    refine ⟨?_, ?_, obeyed⟩
    · simpa only [ClientStream.processStreamXon, scaled, if_true, ClientStream.scaleDown, pending]
        using halved
    · simp only [ClientStream.processStreamXon, scaled, if_true, ClientStream.scaleDown]
      omega
  · rw [count] at paid
    refine ⟨?_, ?_, obeyed⟩
    · simpa only [ClientStream.processStreamXon, scaled, if_false, pending] using paid
    · simpa only [ClientStream.processStreamXon, scaled, if_false] using small

theorem Honest.unstopped {rest : List Command} (honest : Honest p s) (head : s.toClient = .xoff :: rest) :
    s.client.xoffReceived = false := by
  have obeyed := honest.obeyed
  rw [head, obey] at obeyed
  cases stopped : s.client.xoffReceived with
  | true => simp [stopped] at obeyed
  | false => rfl

theorem processStreamXoff_paid {c : ClientStream} (rest : Nat) (unstopped : c.xoffReceived = false)
    (unscaled : p.xoffExit * (c.numXoffRecv + 1) + rest ≤ c.totalBytesXmit)
    (scaled : c.numXoffRecv = xoffCountScaleAt →
      p.xoffExit * (c.numXoffRecv / 2 + 1) + rest ≤ c.totalBytesXmit / 2) :
    p.xoffExit * (c.processStreamXoff p).1.numXoffRecv + rest ≤ (c.processStreamXoff p).1.totalBytesXmit ∧
      (c.processStreamXoff p).1.totalBytesXmit ≤ c.totalBytesXmit ∧
      (c.processStreamXoff p).1.xoffReceived = true ∧ (c.processStreamXoff p).2 = true := by
  have cut (n : Nat) : p.xoffExit * wrap 8 n ≤ p.xoffExit * n := Nat.mul_le_mul_left _ wrap_le
  have checked (n t : Nat) (le : p.xoffExit * n ≤ t) : ¬ t < wrap 32 (p.xoffExit * n) := by
    have := wrap_le (w := 32) (n := p.xoffExit * n)
    omega
  unfold ClientStream.processStreamXoff
  rw [if_neg (by simp [unstopped])]
  by_cases full : c.numXoffRecv = xoffCountScaleAt
  · have enough := scaled full
    have less := cut (c.numXoffRecv / 2 + 1)
    simp only [full, if_true, ClientStream.scaleDown] at enough less ⊢
    refine ⟨by omega, by omega, trivial, ?_⟩
    simpa using checked _ _ (by omega)
  · have less := cut (c.numXoffRecv + 1)
    simp only [full, if_false]
    refine ⟨by omega, by omega, trivial, ?_⟩
    simpa using checked _ _ (by omega)

theorem Honest.xoff {rest : List Command} (honest : Honest p s) (head : s.toClient = .xoff :: rest)
    (ok : ScalesWell p s .deliverCommand) :
    Honest p { s with client := (s.client.processStreamXoff p).1, toClient := rest } ∧
      (s.client.processStreamXoff p).2 = true := by
  have unstopped := honest.unstopped head
  have count : xoffs s.toClient = 1 + xoffs rest := by
    simp [head, xoffs, Nat.add_comm]
  have paid := honest.paid
  have obeyed := honest.obeyed
  rw [head, obey, unstopped] at obeyed
  obtain ⟨enough, less, stopped, valid⟩ :=
    processStreamXoff_paid (p := p) (p.xoffExit * xoffs rest + s.pending) unstopped
      (by simp only [count, Nat.mul_add] at paid ⊢; omega)
      (by
        intro full
        have halved := ok (by simp [scales, head, unstopped, full])
        simp only [count, Nat.mul_add] at halved ⊢
        omega)
  refine ⟨⟨?_, ?_, ?_⟩, valid⟩
  · rw [Nat.mul_add, Nat.add_assoc]
    exact enough
  · exact less.trans honest.small
  · rw [stopped]
    exact obeyed

theorem honest_step {e : StreamEvent} (honest : Honest p s) (ok : ScalesWell p s e)
    (action : s.step p e = some t) : Honest p t := by
  cases e with
  | package len =>
      simp only [step] at action
      split at action
      · rename_i cell
        obtain rfl := Option.some.inj action
        exact honest_package honest cell.2 ok
      · cases action
  | deliverData clock =>
      simp only [step] at action
      split at action
      · cases action
      · rename_i len rest head
        obtain rfl := Option.some.inj action
        exact honest_receiveData honest head
  | drain n clock =>
      simp only [step] at action
      split at action
      · obtain rfl := Option.some.inj action
        exact honest_drained honest
      · cases action
  | deliverCommand =>
      simp only [step] at action
      split at action
      · cases action
      · rename_i rest head
        obtain rfl := Option.some.inj action
        exact honest_xon honest head ok
      · rename_i rest head
        obtain rfl := Option.some.inj action
        exact (honest.xoff head ok).1

/-- As long as halving its counters leaves the client enough bytes to account for what is on its way,
it takes every XOFF of the exit for valid. -/
theorem honest_xoff_valid {c : Consensus} {rest : List Command}
    (reach : (machine (flowControlNewConsensusParams c)).Reach
      (ScalesWell (flowControlNewConsensusParams c)) new s)
    (head : s.toClient = .xoff :: rest)
    (ok : ScalesWell (flowControlNewConsensusParams c) s .deliverCommand) :
    (s.client.processStreamXoff (flowControlNewConsensusParams c)).2 = true := by
  have honest : Honest (flowControlNewConsensusParams c) s := by
    apply reach.invariant honest_new
    intro s e t honest ok action
    exact honest_step honest ok action
  exact (honest.xoff head ok).2

def twoCells : Consensus
  | .xoffExit => some 2
  | _ => none

def stopAndGo (base : Nat) : List StreamEvent :=
  [.package 498, .package 479, .package 1, .package 1,
    .deliverData ⟨base, true⟩, .deliverData ⟨base, true⟩, .deliverData ⟨base, true⟩,
    .deliverData ⟨base + 6000, true⟩, .deliverCommand, .drain 979 ⟨base + 7000, true⟩, .deliverCommand]

theorem honest_xoff_valid_first : ∃ s,
    (machine (flowControlNewConsensusParams twoCells)).Reach
      (ScalesWell (flowControlNewConsensusParams twoCells)) new s ∧ s.toClient = [.xoff] ∧
        (s.client.processStreamXoff (flowControlNewConsensusParams twoCells)).2 = true := by
  obtain ⟨s, reach, head, ok⟩ := Machine.exists_of_run
    (machine (flowControlNewConsensusParams twoCells)) (ScalesWell (flowControlNewConsensusParams twoCells)) new
    (P := fun s => s.toClient = [.xoff] ∧
      ScalesWell (flowControlNewConsensusParams twoCells) s .deliverCommand)
    ((stopAndGo 10000).take 8) (by decide +kernel)
  exact ⟨s, reach, head, honest_xoff_valid reach head ok⟩

/-- The stream after `k` of these. -/
def stoppedAndGone (k : Nat) : Stream where
  client := ⟨979 * k, k, k, false⟩
  exit := ⟨0, false, 0, 0, 979 * k, 0, 0, 0⟩
  toExit := []
  toClient := []

theorem stoppedAndGone_next : ∀ k < 200,
    (machine (flowControlNewConsensusParams twoCells)).run (fun _ _ => True) (stoppedAndGone k)
      (stopAndGo (10000 * (k + 1))) = some (stoppedAndGone (k + 1)) := by
  decide +kernel

theorem stoppedAndGone_reach (k : Nat) (le : k ≤ 200) :
    (machine (flowControlNewConsensusParams twoCells)).Reach (fun _ _ => True) new (stoppedAndGone k) := by
  induction k with
  | zero => exact .refl
  | succ k ih =>
      have before := ih (by omega)
      exact before.trans (Machine.run_reach (stoppedAndGone_next k (by omega)))

/-- The client halves its counters for the 201st XOFF, and keeps too few bytes for the XOFFs it counts. -/
theorem xoff_flagged : ¬ ∀ (c : Consensus) (s : Stream) (rest : List Command),
    (machine (flowControlNewConsensusParams c)).Reach (fun _ _ => True) new s →
      s.toClient = .xoff :: rest →
        (s.client.processStreamXoff (flowControlNewConsensusParams c)).2 = true := by
  intro claim
  obtain ⟨s, reach, head, flagged⟩ := Machine.exists_of_run
    (machine (flowControlNewConsensusParams twoCells)) (fun _ _ => True) (stoppedAndGone 200)
    (P := fun s => s.toClient = [.xoff] ∧
      (s.client.processStreamXoff (flowControlNewConsensusParams twoCells)).2 = false)
    ((stopAndGo 2010000).take 8) (by decide +kernel)
  have valid := claim _ _ _ ((stoppedAndGone_reach 200 (Nat.le_refl _)).trans reach) head
  rw [valid] at flagged
  cases flagged

end Stream
end TorJet.Congestion
