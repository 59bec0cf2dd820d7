import Mathlib.Data.List.Basic
import Mathlib.Algebra.Order.Ring.Nat
import TorJet.Base.Machine
import TorJet.Congestion.Vegas

/-!
# SENDME cells

One end of a circuit with congestion control. It sends DATA cells, remembers the tag and the time of
those that the other end acknowledges, and checks the acknowledgements that come back.
-/

namespace TorJet.Congestion
open Base

abbrev Bytes := List UInt8

inductive TagKind
  | tor1 | cgo
  deriving DecidableEq, Repr

def TagKind.length : TagKind → Nat
  | .tor1 => 20
  | .cgo => 16

structure Tag (k : TagKind) where
  bytes : Bytes
  sized : bytes.length = k.length
  deriving DecidableEq

def tagLenOk (n : Nat) : Bool := n = TagKind.cgo.length || n = TagKind.tor1.length

structure SendmeCell where
  version : Nat
  dataLen : Nat
  digest : Bytes
  deriving DecidableEq, Repr

/-- `sendme_cell_parse`; bytes behind the cell are ignored. -/
def sendmeCellParse : Bytes → Option SendmeCell
  | version :: hi :: lo :: rest =>
      let dataLen := 256 * hi.toNat + lo.toNat
      if 1 < version.toNat then none
      else if dataLen ≠ 16 ∧ dataLen ≠ 20 then none
      else if rest.length < dataLen then none
      else some ⟨version.toNat, dataLen, if version.toNat = 1 then rest.take dataLen else []⟩
  | _ => none

def buildCellPayloadV1 {k : TagKind} (tag : Tag k) : Bytes :=
  1 :: UInt8.ofNat (k.length / 256) :: UInt8.ofNat (k.length % 256) :: tag.bytes

structure Circuit where
  kind : TagKind
  consensus : Consensus
  path : CcPath
  sendmeInc : Nat
  negotiated : validateSendmeIncrement consensus sendmeInc = true
  acceptMinVersion : Nat
  usedLegacyHandshake : Bool

def Circuit.params (c : Circuit) : CcParams := initParams c.consensus c.path c.sendmeInc

structure Endpoint (k : TagKind) where
  cc : CongestionControl
  sendmeLastDigests : List Bytes
  closed : Bool
  sent : List (Tag k)
  accepted : Nat

/-- `record_cell_digest_on_circ`: the buffer is filled up with zeros. -/
def Tag.buffer {k : TagKind} (tag : Tag k) : Bytes :=
  tag.bytes ++ List.replicate (TagKind.tor1.length - k.length) 0

def cellV1IsValid (k : TagKind) (cell : SendmeCell) (circDigest : Bytes) : Bool :=
  tagLenOk cell.dataLen && cell.dataLen ≤ cell.digest.length && cell.dataLen = k.length &&
    circDigest.take cell.dataLen = cell.digest.take cell.dataLen

def sendmeMaxSupportedVersion : Nat := 1

def cellVersionCanBeHandled (acceptMinVersion version : Nat) : Bool :=
  acceptMinVersion ≤ sendmeMaxSupportedVersion && acceptMinVersion ≤ version &&
    version ≤ sendmeMaxSupportedVersion

namespace Endpoint
variable (c : Circuit) (e : Endpoint c.kind)

/-- The cell that `sendme_is_valid` looks at: an empty payload is version 0. -/
def parsed (payload : Bytes) : Option SendmeCell :=
  if payload = [] then some ⟨0, 0, []⟩ else sendmeCellParse payload

def popsDigest (payload : Bytes) : Bool :=
  (parsed payload).any fun cell =>
    c.usedLegacyHandshake && cell.version = 0 || cellVersionCanBeHandled c.acceptMinVersion cell.version

def sendmeIsValid (payload : Bytes) : Bool :=
  popsDigest c payload && match parsed payload, e.sendmeLastDigests with
    | some cell, digest :: _ => cell.version ≠ 1 || cellV1IsValid c.kind cell digest
    | _, _ => false

inductive Event (k : TagKind)
  | data (tag : Tag k) (nowUsec : Nat)
  | other
  | sendme (payload : Bytes) (env : Surroundings)

/-- `sendme_record_cell_digest_on_circ`, then `sendme_note_circuit_data_packaged`. -/
def sendData (tag : Tag c.kind) (nowUsec : Nat) : Endpoint c.kind :=
  { e with
    sendmeLastDigests :=
      if e.cc.sentCellForSendme c.params then e.sendmeLastDigests ++ [tag.buffer] else e.sendmeLastDigests
    cc := e.cc.noteCellSent c.params nowUsec
    sent := e.sent ++ [tag] }

def processSendme (payload : Bytes) (env : Surroundings) : Endpoint c.kind :=
  let popped := { e with
    sendmeLastDigests := if popsDigest c payload then e.sendmeLastDigests.tail else e.sendmeLastDigests }
  if e.sendmeIsValid c payload then
    { popped with cc := e.cc.dispatchCcAlg c.params env, accepted := e.accepted + 1 }
  else { popped with closed := true }

def step : Event c.kind → Option (Endpoint c.kind)
  | .data tag nowUsec =>
      if e.closed ∨ e.cc.packageWindow = 0 then none else some (e.sendData c tag nowUsec)
  | .other => if e.closed then none else some e
  | .sendme payload env => if e.closed then none else some (e.processSendme c payload env)

def machine : Machine (Endpoint c.kind) (Event c.kind) where
  step e := e.step c

def new : Endpoint c.kind where
  cc := .new c.params
  sendmeLastDigests := []
  closed := false
  sent := []
  accepted := 0

end Endpoint

/-! ## Frames -/

section Frame
variable (p : CcParams) (env : Surroundings) (cc : CongestionControl)

namespace CongestionControl

theorem updateMinRtt_frame : (cc.updateMinRtt p).inflight = cc.inflight ∧ (cc.updateMinRtt p).cwnd = cc.cwnd ∧
    (cc.updateMinRtt p).sendmePendingTimestamps = cc.sendmePendingTimestamps := by
  unfold updateMinRtt
  split_ifs <;> exact ⟨rfl, rfl, rfl⟩

theorem updateCircuitRtt_frame : (cc.updateCircuitRtt p env).1.inflight = cc.inflight ∧
    (cc.updateCircuitRtt p env).1.cwnd = cc.cwnd ∧
    (cc.updateCircuitRtt p env).1.sendmePendingTimestamps = cc.sendmePendingTimestamps.tail := by
  unfold updateCircuitRtt
  dsimp only
  split
  · exact ⟨rfl, rfl, rfl⟩
  · exact updateMinRtt_frame p _

theorem updateCircuitBdp_frame (rtt : Nat) : (cc.updateCircuitBdp p env rtt).1.inflight = cc.inflight ∧
    (cc.updateCircuitBdp p env rtt).1.cwnd = cc.cwnd ∧
    (cc.updateCircuitBdp p env rtt).1.sendmePendingTimestamps = cc.sendmePendingTimestamps := by
  unfold updateCircuitBdp
  dsimp only
  split
  · exact ⟨rfl, rfl, rfl⟩
  · split <;> exact ⟨rfl, rfl, rfl⟩

theorem updateCircuitEstimates_frame : (cc.updateCircuitEstimates p env).1.inflight = cc.inflight ∧
    (cc.updateCircuitEstimates p env).1.cwnd = cc.cwnd ∧
    (cc.updateCircuitEstimates p env).1.sendmePendingTimestamps = cc.sendmePendingTimestamps.tail := by
  obtain ⟨inflight, cwnd, timestamps⟩ := updateCircuitRtt_frame p env cc
  obtain ⟨inflight', cwnd', timestamps'⟩ :=
    updateCircuitBdp_frame p env (cc.updateCircuitRtt p env).1 (cc.updateCircuitRtt p env).2
  exact ⟨inflight'.trans inflight, cwnd'.trans cwnd, timestamps'.trans timestamps⟩

theorem slowStart_frame (queueUse : Nat) : (cc.slowStart p queueUse).inflight = cc.inflight ∧
    (cc.slowStart p queueUse).sendmePendingTimestamps = cc.sendmePendingTimestamps := by
  unfold slowStart
  dsimp only
  split_ifs <;> exact ⟨rfl, rfl⟩

theorem steady_frame (queueUse : Nat) : (cc.steady p queueUse).inflight = cc.inflight ∧
    (cc.steady p queueUse).sendmePendingTimestamps = cc.sendmePendingTimestamps := by
  unfold steady reduceTo
  dsimp only
  split_ifs <;> exact ⟨rfl, rfl⟩

theorem resetEvents_frame : (cc.resetEvents p).inflight = cc.inflight ∧ (cc.resetEvents p).cwnd = cc.cwnd ∧
    (cc.resetEvents p).sendmePendingTimestamps = cc.sendmePendingTimestamps := by
  unfold resetEvents
  dsimp only
  split_ifs <;> exact ⟨rfl, rfl, rfl⟩

theorem updateFull_frame : (cc.updateFull p).inflight = cc.inflight ∧ (cc.updateFull p).cwnd = cc.cwnd ∧
    (cc.updateFull p).sendmePendingTimestamps = cc.sendmePendingTimestamps := by
  unfold updateFull
  split_ifs <;> exact ⟨rfl, rfl, rfl⟩

theorem updateWindow_frame : (cc.updateWindow p).inflight = cc.inflight ∧
    (cc.updateWindow p).sendmePendingTimestamps = cc.sendmePendingTimestamps := by
  obtain ⟨full, -, fullTimes⟩ := updateFull_frame p cc
  have changed (cc' : CongestionControl) (inflight : cc'.inflight = cc.inflight)
      (times : cc'.sendmePendingTimestamps = cc.sendmePendingTimestamps) :
      (if (cc'.resetEvents p).cwndFullReset p then { cc'.resetEvents p with cwndFull := false }
        else cc'.resetEvents p).inflight = cc.inflight ∧
      (if (cc'.resetEvents p).cwndFullReset p then { cc'.resetEvents p with cwndFull := false }
        else cc'.resetEvents p).sendmePendingTimestamps = cc.sendmePendingTimestamps := by
    obtain ⟨reset, -, resetTimes⟩ := resetEvents_frame p cc'
    split <;> exact ⟨reset.trans inflight, resetTimes.trans times⟩
  unfold updateWindow
  dsimp only
  apply changed
  · split_ifs
    · exact (slowStart_frame p _ _).1.trans full
    · exact (steady_frame p _ _).1.trans full
    · exact full
  · split_ifs
    · exact (slowStart_frame p _ _).2.trans fullTimes
    · exact (steady_frame p _ _).2.trans fullTimes
    · exact fullTimes

theorem dispatchCcAlg_frame : (cc.dispatchCcAlg p env).inflight = wsub 64 cc.inflight p.sendmeInc ∧
    (cc.dispatchCcAlg p env).sendmePendingTimestamps = cc.sendmePendingTimestamps.tail ∧
    (cc.dispatchCcAlg p env).cwnd ≤ p.cwndMax := by
  obtain ⟨inflight, -, times⟩ := updateCircuitEstimates_frame p env
    { cc with nextCcEvent := cc.nextCcEvent - 1, nextCwndEvent := cc.nextCwndEvent - 1 }
  refine ⟨?_, ?_, Nat.min_le_right ..⟩
  · unfold dispatchCcAlg vegasProcessSendme acked
    dsimp only
    split
    · rw [(updateWindow_frame p _).1, inflight]
    · rw [inflight]
  · unfold dispatchCcAlg vegasProcessSendme acked
    dsimp only
    split
    · rw [(updateWindow_frame p _).2, times]
    · rw [times]

end CongestionControl
end Frame

/-! ## The account of a circuit -/

theorem mul_after (s a k : Nat) : s * (a + 1 + k) = s * a + s * (k + 1) := by
  rw [Nat.add_assoc, Nat.mul_add, Nat.add_comm 1 k]

theorem Circuit.increment_pos (c : Circuit) : 0 < c.sendmeInc := by
  have valid := c.negotiated
  simp only [validateSendmeIncrement, decide_eq_true_eq] at valid
  omega

theorem Circuit.windows_fit (c : Circuit) : c.params.cwndInit < 2 ^ 64 ∧ c.params.cwndMax < 2 ^ 64 := by
  have init : c.params.cwndInit ≤ 10000 := (clampTo_range (by decide)).2
  have most : c.params.cwndMax ≤ int32Max := (clampTo_range (by decide)).2
  unfold int32Max at most
  omega

section Account
variable {c : Circuit} {e e' : Endpoint c.kind}

structure Endpoint.Accounted (c : Circuit) (e : Endpoint c.kind) : Prop where
  window : e.cc.cwnd < 2 ^ 64
  inflight : e.cc.inflight + c.sendmeInc * e.accepted = e.sent.length
  room : e.cc.inflight < 2 ^ 64
  times : e.cc.sendmePendingTimestamps.length = e.sendmeLastDigests.length
  owed : e.sendmeLastDigests.length ≤ e.cc.inflight / c.sendmeInc
  exact : c.sendmeInc ≠ 1 → e.sendmeLastDigests.length = e.cc.inflight / c.sendmeInc
  tags : c.sendmeInc ≠ 1 → ∀ i < e.sendmeLastDigests.length, e.sendmeLastDigests[i]? =
    (e.sent[c.sendmeInc * (e.accepted + 1 + i) - 1]?).map Tag.buffer

namespace Endpoint

theorem new_accounted : (new c).Accounted c where
  window := c.windows_fit.1
  inflight := rfl
  room := Nat.two_pow_pos 64
  times := rfl
  owed := Nat.zero_le _
  exact _ := (Nat.zero_div _).symm
  tags _ i lt := absurd lt (Nat.not_lt_zero i)

theorem sentCellForSendme_iff (room : e.cc.inflight + 1 < 2 ^ 64) (big : c.sendmeInc ≠ 1) :
    e.cc.sentCellForSendme c.params = true ↔ c.sendmeInc ∣ e.cc.inflight + 1 := by
  have pos := c.increment_pos
  have same : c.params.sendmeInc = c.sendmeInc := rfl
  simp only [CongestionControl.sentCellForSendme, wrap_of_lt room, same, decide_eq_true_eq,
    Nat.dvd_iff_mod_eq_zero]
  constructor
  · exact And.right
  · intro completes
    refine ⟨fun none => ?_, completes⟩
    rw [none, Nat.zero_add, Nat.mod_eq_of_lt (by omega)] at completes
    cases completes

theorem Accounted.sendData {tag : Tag c.kind} {now : Nat} (h : e.Accounted c) (free : e.cc.packageWindow ≠ 0) :
    (e.sendData c tag now).Accounted c := by
  have pos := c.increment_pos
  have below : e.cc.inflight < e.cc.cwnd := by
    unfold CongestionControl.packageWindow at free
    omega
  have window := h.window
  have room : e.cc.inflight + 1 < 2 ^ 64 := by omega
  have inflight : (e.sendData c tag now).cc.inflight = e.cc.inflight + 1 := wrap_of_lt room
  have digests : (e.sendData c tag now).sendmeLastDigests =
      if e.cc.sentCellForSendme c.params then e.sendmeLastDigests ++ [tag.buffer] else e.sendmeLastDigests := rfl
  have times : (e.sendData c tag now).cc.sendmePendingTimestamps =
      if e.cc.sentCellForSendme c.params then e.cc.sendmePendingTimestamps ++ [now]
      else e.cc.sendmePendingTimestamps := rfl
  have divided := Nat.succ_div (a := e.cc.inflight) (b := c.sendmeInc)
  refine ⟨window, ?_, ?_, ?_, ?_, fun big => ?_, fun big i lt => ?_⟩
  · rw [inflight]
    have before := h.inflight
    simp only [Endpoint.sendData, List.length_append, List.length_singleton]
    omega
  · rw [inflight]
    exact room
  · rw [times, digests]
    have same := h.times
    split
    · simp [same]
    · exact same
  · rw [inflight, digests, divided]
    have le := h.owed
    split
    · rename_i completes
      simp only [CongestionControl.sentCellForSendme, wrap_of_lt room, decide_eq_true_eq] at completes
      have dvd : c.sendmeInc ∣ e.cc.inflight + 1 := Nat.dvd_of_mod_eq_zero completes.2
      rw [if_pos dvd, List.length_append]
      exact Nat.add_le_add_right le 1
    · omega
  · rw [inflight, digests, divided]
    have eq := h.exact big
    have iff := sentCellForSendme_iff room big
    split
    · rename_i completes
      rw [if_pos (iff.mp completes), List.length_append, eq, List.length_singleton]
    · rename_i incomplete
      rw [if_neg fun dvd => incomplete (iff.mpr dvd), eq, Nat.add_zero]
  · have eq := h.exact big
    have old := h.tags big
    have account := h.inflight
    have iff := sentCellForSendme_iff room big
    rw [digests] at lt ⊢
    simp only [Endpoint.sendData]
    -- the cells of older digests are not the new one
    have earlier (k : Nat) (lt : k < e.sendmeLastDigests.length) :
        c.sendmeInc * (e.accepted + 1 + k) - 1 < e.sent.length := by
      have le : c.sendmeInc * (k + 1) ≤ e.cc.inflight := by
        rw [eq] at lt
        exact (Nat.mul_le_mul_left _ lt).trans (Nat.mul_div_le _ _)
      have split := mul_after c.sendmeInc e.accepted k
      have : 0 < c.sendmeInc * (k + 1) := Nat.mul_pos pos k.succ_pos
      omega
    split at lt
    · rename_i completes
      rw [if_pos completes]
      by_cases last : i < e.sendmeLastDigests.length
      · rw [List.getElem?_append_left last, old i last, List.getElem?_append_left (earlier i last)]
      · have here : i = e.sendmeLastDigests.length := by
          rw [List.length_append, List.length_singleton] at lt
          omega
        have place : c.sendmeInc * (e.accepted + 1 + i) - 1 = e.sent.length := by
          obtain ⟨k, multiple⟩ := iff.mp completes
          have number : e.cc.inflight / c.sendmeInc + 1 = k := by
            rw [if_pos (iff.mp completes), multiple, Nat.mul_div_cancel_left _ pos] at divided
            omega
          have split := mul_after c.sendmeInc e.accepted i
          rw [here, eq, number] at split
          rw [here, eq]
          omega
        rw [place, here]
        simp
    · rename_i incomplete
      rw [if_neg incomplete, old i lt, List.getElem?_append_left (earlier i lt)]

theorem Accounted.processSendme {payload : Bytes} {env : Surroundings} (h : e.Accounted c)
    (valid : e.sendmeIsValid c payload = true) : (e.processSendme c payload env).Accounted c := by
  have pos := c.increment_pos
  simp only [sendmeIsValid, Bool.and_eq_true] at valid
  obtain ⟨pops, isDigest⟩ := valid
  obtain ⟨inflight, times, window⟩ := CongestionControl.dispatchCcAlg_frame c.params env e.cc
  -- a digest is there, so an increment is in flight
  obtain ⟨digest, rest, digests⟩ : ∃ digest rest, e.sendmeLastDigests = digest :: rest := by
    split at isDigest
    · rename_i cell digest rest _ digests
      exact ⟨digest, rest, digests⟩
    · cases isDigest
  have one : 0 < e.cc.inflight / c.sendmeInc := by
    have le := h.owed
    rw [digests, List.length_cons] at le
    omega
  have le : c.sendmeInc ≤ e.cc.inflight := (Nat.div_pos_iff.mp one).2
  have result : e.processSendme c payload env = { e with
      sendmeLastDigests := rest, cc := e.cc.dispatchCcAlg c.params env, accepted := e.accepted + 1 } := by
    unfold Endpoint.processSendme
    rw [if_pos (by simp only [sendmeIsValid, pops, isDigest, Bool.and_self]), if_pos pops, digests]
    rfl
  have less : (e.cc.dispatchCcAlg c.params env).inflight = e.cc.inflight - c.sendmeInc :=
    inflight.trans (wsub_of_le le h.room)
  have divided : (e.cc.inflight - c.sendmeInc) / c.sendmeInc = e.cc.inflight / c.sendmeInc - 1 :=
    Nat.sub_mul_div e.cc.inflight c.sendmeInc 1 |> (by simpa using ·)
  rw [result]
  refine ⟨window.trans_lt c.windows_fit.2, ?_, ?_, ?_, ?_, fun big => ?_, fun big i lt => ?_⟩
  · have account := h.inflight
    have more : c.sendmeInc * (e.accepted + 1) = c.sendmeInc * e.accepted + c.sendmeInc := Nat.mul_succ ..
    dsimp only
    omega
  · have room := h.room
    dsimp only
    omega
  · have same := h.times
    rw [digests] at same
    dsimp only
    rw [times, List.length_tail, same]
    rfl
  · have owed := h.owed
    rw [digests, List.length_cons] at owed
    dsimp only
    rw [less, divided]
    omega
  · have exact := h.exact big
    rw [digests, List.length_cons] at exact
    dsimp only
    rw [less, divided]
    omega
  · have tags := h.tags big (i + 1)
    rw [digests] at tags
    dsimp only at lt ⊢
    have place : e.accepted + 1 + (i + 1) = e.accepted + 1 + 1 + i := by omega
    rw [← place]
    exact tags (Nat.succ_lt_succ lt)

theorem Accounted.step {ev : Event c.kind} (h : e.closed = false → e.Accounted c)
    (action : e.step c ev = some e') : e'.closed = false → e'.Accounted c := by
  cases ev with
  | data tag now =>
      simp only [Endpoint.step] at action
      split at action
      · cases action
      · rename_i free
        obtain rfl := Option.some.inj action
        have isOpen : e.closed = false := by simpa using fun closed => free (.inl closed)
        exact fun _ => (h isOpen).sendData fun none => free (.inr none)
  | other =>
      simp only [Endpoint.step] at action
      split at action
      · cases action
      · obtain rfl := Option.some.inj action
        exact h
  | sendme payload env =>
      simp only [Endpoint.step] at action
      split at action
      · cases action
      · rename_i isOpen
        obtain rfl := Option.some.inj action
        intro still
        by_cases valid : e.sendmeIsValid c payload = true
        · exact (h (by simpa using isOpen)).processSendme valid
        · simp [Endpoint.processSendme, valid] at still

theorem accounted (reach : (machine c).Reach (fun _ _ => True) (new c) e) :
    e.closed = false → e.Accounted c := by
  induction reach with
  | refl => exact fun _ => new_accounted
  | next _ _ action ih => exact Accounted.step ih action

end Endpoint

theorem parse_buildCellPayloadV1 {k : TagKind} (tag : Tag k) :
    Endpoint.parsed (buildCellPayloadV1 tag) = some ⟨1, k.length, tag.bytes⟩ := by
  have sized := tag.sized
  have taken : tag.bytes.take k.length = tag.bytes := List.take_of_length_le sized.le
  unfold Endpoint.parsed buildCellPayloadV1
  rw [if_neg (List.cons_ne_nil _ _)]
  cases k with
  | tor1 =>
      simp only [TagKind.length] at sized taken ⊢
      simp [sendmeCellParse, sized, taken]
  | cgo =>
      simp only [TagKind.length] at sized taken ⊢
      simp [sendmeCellParse, sized, taken]

theorem cellV1IsValid_buffer {k : TagKind} (tag : Tag k) :
    cellV1IsValid k ⟨1, k.length, tag.bytes⟩ tag.buffer = true := by
  have sized := tag.sized
  have ok : tagLenOk k.length = true := by cases k <;> rfl
  have same : tag.buffer.take k.length = tag.bytes.take k.length := by
    rw [Tag.buffer, List.take_append_of_le_length sized.ge]
  simp [cellV1IsValid, ok, sized, same]

end Account

/-- With an increment of at least two, the counter and the two queues agree with what was sent and
acknowledged, and the acknowledgements of a peer that follows the protocol are accepted. -/
theorem sendmes_accounted {c : Circuit} {e : Endpoint c.kind} (increment : c.sendmeInc ≠ 1)
    (supported : c.acceptMinVersion ≤ sendmeMaxSupportedVersion)
    (reach : (Endpoint.machine c).Reach (fun _ _ => True) (.new c) e) (isOpen : e.closed = false) :
    e.cc.inflight + c.sendmeInc * e.accepted = e.sent.length ∧
      e.sendmeLastDigests.length = e.cc.inflight / c.sendmeInc ∧
      e.cc.sendmePendingTimestamps.length = e.cc.inflight / c.sendmeInc ∧
      (∀ payload, e.sendmeIsValid c payload = true → e.cc.sendmePendingTimestamps ≠ []) ∧
      ∀ tag, e.sent[c.sendmeInc * (e.accepted + 1) - 1]? = some tag →
        e.sendmeIsValid c (buildCellPayloadV1 tag) = true := by
  have h := Endpoint.accounted reach isOpen
  have pos := c.increment_pos
  have exact := h.exact increment
  refine ⟨h.inflight, exact, h.times.trans exact, fun payload valid none => ?_, fun tag isCell => ?_⟩
  · have digests : e.sendmeLastDigests = [] := by
      rw [← List.length_eq_zero_iff, ← h.times, none]
      rfl
    simp only [Endpoint.sendmeIsValid, digests, Bool.and_eq_true] at valid
    obtain ⟨-, isDigest⟩ := valid
    split at isDigest
    · rename_i here
      cases here
    · cases isDigest
  · -- the cell has been sent, so its digest heads the list
    have range := (List.getElem?_eq_some_iff.mp isCell).1
    have account := h.inflight
    have more : c.sendmeInc * (e.accepted + 1) = c.sendmeInc * e.accepted + c.sendmeInc := Nat.mul_succ ..
    have one : 0 < e.sendmeLastDigests.length := by
      rw [exact]
      exact Nat.div_pos (by omega) pos
    have head := h.tags increment 0 one
    rw [Nat.add_zero, isCell] at head
    obtain ⟨rest, digests⟩ : ∃ rest, e.sendmeLastDigests = tag.buffer :: rest := by
      rw [← List.head?_eq_getElem?] at head
      exact List.head?_eq_some_iff.mp head
    have pops : Endpoint.popsDigest c (buildCellPayloadV1 tag) = true := by
      unfold sendmeMaxSupportedVersion at supported
      simp [Endpoint.popsDigest, parse_buildCellPayloadV1, cellVersionCanBeHandled, sendmeMaxSupportedVersion,
        supported]
    simp only [Endpoint.sendmeIsValid, pops, parse_buildCellPayloadV1, digests, Bool.true_and]
    simp [cellV1IsValid_buffer]

def Circuit.withIncrement (sendmeInc : Nat)
    (negotiated : validateSendmeIncrement (fun n => if n = .sendmeInc then some sendmeInc else none) sendmeInc = true) :
    Circuit where
  kind := .cgo
  consensus n := if n = .sendmeInc then some sendmeInc else none
  path := .exit
  sendmeInc := sendmeInc
  negotiated := negotiated
  acceptMinVersion := 0
  usedLegacyHandshake := false

def zeroTag : Tag .cgo := ⟨List.replicate 16 0, rfl⟩

theorem acknowledged_pair_accounted : ∃ e : Endpoint .cgo,
    (Endpoint.machine (.withIncrement 2 (by decide))).Reach (fun _ _ => True) (.new _) e ∧
      e.closed = false ∧ e.accepted = 1 ∧ e.cc.inflight + 2 * e.accepted = e.sent.length := by
  obtain ⟨e, reach, isOpen, accepted⟩ := Machine.exists_of_run (Endpoint.machine (.withIncrement 2 (by decide)))
    (fun _ _ => True) (.new _) (P := fun e => e.closed = false ∧ e.accepted = 1)
    [.data zeroTag 5, .other, .data zeroTag 6, .data zeroTag 7,
      .sendme (buildCellPayloadV1 zeroTag) ⟨90, false, 0, false⟩] (by decide +kernel)
  exact ⟨e, reach, isOpen, accepted, (sendmes_accounted (by decide) (by decide) reach isOpen).1⟩

/-- With an increment of one, the first cell of a window is not noted, although the peer acknowledges
it. -/
theorem single_cell_not_noted : ¬ ∀ (c : Circuit) (e : Endpoint c.kind),
    (Endpoint.machine c).Reach (fun _ _ => True) (.new c) e → e.closed = false →
      e.cc.inflight + c.sendmeInc * e.accepted = e.sent.length ∧
        e.sendmeLastDigests.length = e.cc.inflight / c.sendmeInc ∧
        e.cc.sendmePendingTimestamps.length = e.cc.inflight / c.sendmeInc ∧
        (∀ payload, e.sendmeIsValid c payload = true → e.cc.sendmePendingTimestamps ≠ []) ∧
        ∀ tag, e.sent[c.sendmeInc * (e.accepted + 1) - 1]? = some tag →
          e.sendmeIsValid c (buildCellPayloadV1 tag) = true := by
  intro claim
  obtain ⟨e, reach, isOpen, digests, inflight⟩ := Machine.exists_of_run
    (Endpoint.machine (.withIncrement 1 (by decide))) (fun _ _ => True) (.new _)
    (P := fun e => e.closed = false ∧ e.sendmeLastDigests.length = 0 ∧ e.cc.inflight = 1)
    [.data zeroTag 5] (by decide +kernel)
  obtain ⟨-, noted, -⟩ := claim _ e reach isOpen
  rw [digests, inflight] at noted
  exact absurd noted (by decide)

end TorJet.Congestion
