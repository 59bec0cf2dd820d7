import TorJet.Net.Dest
import TorJet.Relay.Codec

/-!
# BEGIN messages

The client prints the destination of a stream and its port into a BEGIN message, and the exit reads them back from it.
Every byte the exit looks at is one of the message.
-/

namespace TorJet.Relay
open Base Net

def MAX_SOCKS_ADDR_LEN : Nat := 256

/-- `socks_request_t`; the address is the text in its buffer. -/
structure SocksRequest where
  address : Text
  port : BitVec 16
  fits : address.length < MAX_SOCKS_ADDR_LEN

/-- The purposes of circuits, as far as `connection_ap_handshake_send_begin` tells them apart. -/
inductive Purpose
  | cGeneral
  | confluxLinked
  | controller
  | other
  deriving DecidableEq

def textBytes (t : Text) : List Byte := t.map fun c => BitVec.ofNat 8 c.toNat

def bytesText (bytes : List Byte) : Text := bytes.map fun b => Char.ofNat b.toNat

/-- The payload that `connection_ap_handshake_send_begin` writes. -/
def beginPayload (purpose : Purpose) (socks : SocksRequest) (begincellFlags : BitVec 32) (payloadMax : Nat) : List Byte :=
  let address :=
    if purpose = .cGeneral ∨ purpose = .confluxLinked ∨ purpose = .controller then socks.address else []
  -- `tor_snprintf` cuts what has no room before the NUL
  let printed := (withPort address socks.port.toNat).take (payloadMax - 1)
  let payload := textBytes printed ++ [0]
  if payload.length ≤ payloadMax - 4 ∧ begincellFlags ≠ 0 then payload ++ uint32Bytes begincellFlags else payload

/-- The message of `connection_ap_handshake_send_begin`. -/
def connectionApHandshakeSendBegin (format : Format) (purpose : Purpose) (useBegindir : Bool) (socks : SocksRequest)
    (begincellFlags : BitVec 32) (streamId : BitVec 16) : RelayMsg :=
  let payload := beginPayload purpose socks begincellFlags (relayCellMaxPayloadSize format RELAY_COMMAND_BEGIN)
  { command := if useBegindir then RELAY_COMMAND_BEGIN_DIR else RELAY_COMMAND_BEGIN
    length := BitVec.ofNat 16 payload.length
    streamId := streamId
    isRelayEarly := false
    body := payload
    available := by
      rw [BitVec.toNat_ofNat]
      exact Nat.mod_le _ _ }

inductive Outside
  | offset (i : Nat)
  deriving DecidableEq

inductive EndReason
  | misc
  | internal
  | torprotocol
  deriving DecidableEq

structure BeginCell where
  address : Option Text
  flags : BitVec 32
  port : Nat
  streamId : BitVec 16
  isBegindir : Bool
  deriving DecidableEq

def RelayMsg.read (msg : RelayMsg) (offset : Nat) : Except Outside Byte :=
  match msg.content[offset]? with
  | some b => .ok b
  | none => .error (.offset offset)

/-- `memchr` for the NUL, over so many bytes from the offset on. -/
def memchr (msg : RelayMsg) (offset : Nat) : Nat → Except Outside (Option Nat)
  | 0 => .ok none
  | n + 1 => do
      let b ← msg.read offset
      if b = 0 then return some offset else memchr msg (offset + 1) n

def stringAt (msg : RelayMsg) (offset : Nat) : Nat → Except Outside Text
  | 0 => .error (.offset offset)
  | n + 1 => do
      let b ← msg.read offset
      if b = 0 then return []
      else return Char.ofNat b.toNat :: (← stringAt msg (offset + 1) n)

/-- `ntohl` of `get_uint32` -/
def getUint32 (msg : RelayMsg) (offset : Nat) : Except Outside (BitVec 32) := do
  let a ← msg.read offset
  let b ← msg.read (offset + 1)
  let c ← msg.read (offset + 2)
  let d ← msg.read (offset + 3)
  return a ++ b ++ c ++ d

def beginCellParse (msg : RelayMsg) : Except Outside (Except EndReason BeginCell) :=
  if msg.command = RELAY_COMMAND_BEGIN_DIR then
    .ok (.ok ⟨none, 0, 0, msg.streamId, true⟩)
  else if msg.command ≠ RELAY_COMMAND_BEGIN then .ok (.error .internal)
  else do
    match ← memchr msg 0 msg.length.toNat with
    | none => return .error .torprotocol
    | some nul =>
        match torAddrPortSplit (← stringAt msg 0 (msg.body.length + 1)) with
        | none => return .error .torprotocol
        | some (address, port) =>
            if port = 0 then return .error .torprotocol
            else
              let flags ← (if msg.length.toNat > nul + 4 then getUint32 msg (nul + 1) else pure 0)
              return .ok ⟨some address, flags, port, msg.streamId, false⟩

/-! ## Reading a message -/

section Reading
variable {msg : RelayMsg} {before front rest : List Byte} {n : Nat} {b : Byte}

theorem RelayMsg.read_eq (split : msg.content = before ++ b :: rest) : msg.read before.length = .ok b := by
  rw [RelayMsg.read, split, List.getElem?_append_right le_rfl, Nat.sub_self]
  rfl

theorem length_snoc : (before ++ [b]).length = before.length + 1 := List.length_append

theorem split_next (split : msg.content = before ++ b :: rest) : msg.content = (before ++ [b]) ++ rest := by
  rw [split, List.append_assoc]
  rfl

theorem memchr_none (split : msg.content = before ++ front) (noNul : 0 ∉ front) :
    memchr msg before.length front.length = .ok none := by
  induction front generalizing before with
  | nil => rfl
  | cons b front ih =>
      obtain ⟨other, noNul⟩ := not_or.mp (mt List.mem_cons.mpr noNul)
      rw [List.length_cons, memchr, msg.read_eq split]
      dsimp only [bind, Except.bind]
      rw [if_neg (Ne.symm other), ← @length_snoc before b]
      exact ih (split_next split) noNul

theorem memchr_found (split : msg.content = before ++ (front ++ 0 :: rest)) (noNul : 0 ∉ front)
    (room : front.length < n) :
    memchr msg before.length n = .ok (some (before.length + front.length)) := by
  induction front generalizing before n with
  | nil =>
      obtain ⟨n, rfl⟩ : ∃ m, n = m + 1 := ⟨n - 1, by omega⟩
      rw [memchr, msg.read_eq split]
      rfl
  | cons b front ih =>
      obtain ⟨other, noNul⟩ := not_or.mp (mt List.mem_cons.mpr noNul)
      obtain ⟨n, rfl⟩ : ∃ m, n = m + 1 := ⟨n - 1, by omega⟩
      rw [memchr, msg.read_eq split]
      dsimp only [bind, Except.bind]
      rw [if_neg (Ne.symm other), ← @length_snoc before b,
        ih (split_next split) noNul (Nat.lt_of_succ_lt_succ room),
        length_snoc, List.length_cons, Nat.add_assoc, Nat.add_comm 1]

theorem stringAt_found (split : msg.content = before ++ (front ++ 0 :: rest)) (noNul : 0 ∉ front)
    (room : front.length < n) :
    stringAt msg before.length n = .ok (bytesText front) := by
  induction front generalizing before n with
  | nil =>
      obtain ⟨n, rfl⟩ : ∃ m, n = m + 1 := ⟨n - 1, by omega⟩
      rw [stringAt, msg.read_eq split]
      rfl
  | cons b front ih =>
      obtain ⟨other, noNul⟩ := not_or.mp (mt List.mem_cons.mpr noNul)
      obtain ⟨n, rfl⟩ : ∃ m, n = m + 1 := ⟨n - 1, by omega⟩
      rw [stringAt, msg.read_eq split]
      dsimp only [bind, Except.bind]
      rw [if_neg (Ne.symm other), ← @length_snoc before b,
        ih (split_next split) noNul (Nat.lt_of_succ_lt_succ room)]
      rfl

def flagsOf : List Byte → BitVec 32
  | a :: b :: c :: d :: _ => a ++ b ++ c ++ d
  | _ => 0

theorem getUint32_eq (split : msg.content = before ++ rest) (room : 4 ≤ rest.length) :
    getUint32 msg before.length = .ok (flagsOf rest) := by
  obtain _ | ⟨a, _ | ⟨b, _ | ⟨c, _ | ⟨d, rest⟩⟩⟩⟩ := rest
  · cases room
  · exact absurd room (by simp)
  · exact absurd room (by simp)
  · exact absurd room (by simp)
  have second := split_next split
  have third := split_next second
  have fourth := split_next third
  have at₂ := msg.read_eq second
  have at₃ := msg.read_eq third
  have at₄ := msg.read_eq fourth
  simp only [List.length_append, List.length_singleton] at at₂ at₃ at₄
  rw [getUint32, msg.read_eq split, at₂, at₃, at₄]
  rfl

theorem flagsOf_short (short : rest.length < 4) : flagsOf rest = 0 := by
  obtain _ | ⟨a, _ | ⟨b, _ | ⟨c, _ | ⟨d, rest⟩⟩⟩⟩ := rest
  · rfl
  · rfl
  · rfl
  · rfl
  · exact absurd short (by simp)

def beginAnswer (msg : RelayMsg) (text : Text) (rest : List Byte) : Except EndReason BeginCell :=
  match torAddrPortSplit text with
  | none => .error .torprotocol
  | some (address, port) =>
      if port = 0 then .error .torprotocol else .ok ⟨some address, flagsOf rest, port, msg.streamId, false⟩

theorem beginCellParse_noNul (command : msg.command = RELAY_COMMAND_BEGIN) (noNul : 0 ∉ msg.content) :
    beginCellParse msg = .ok (.error .torprotocol) := by
  have scanned := @memchr_none msg [] msg.content rfl noNul
  rw [RelayMsg.length_content] at scanned
  rw [beginCellParse, if_neg (by rw [command]; decide), if_neg (not_not.mpr command)]
  change (memchr msg 0 msg.length.toNat >>= _) = _
  rw [List.length_nil] at scanned
  rw [scanned]
  rfl

theorem beginCellParse_eq (command : msg.command = RELAY_COMMAND_BEGIN) (split : msg.content = front ++ 0 :: rest)
    (noNul : 0 ∉ front) : beginCellParse msg = .ok (beginAnswer msg (bytesText front) rest) := by
  have total : msg.length.toNat = front.length + rest.length + 1 := by
    rw [← RelayMsg.length_content, split, List.length_append, List.length_cons, Nat.add_assoc]
  have available := msg.available
  have scanned := @memchr_found msg [] front rest msg.length.toNat split noNul (by omega)
  have text := @stringAt_found msg [] front rest (msg.body.length + 1) split noNul (by omega)
  rw [List.length_nil] at scanned text
  rw [Nat.zero_add] at scanned
  rw [beginCellParse, if_neg (by rw [command]; decide), if_neg (not_not.mpr command), scanned]
  dsimp only [bind, Except.bind]
  rw [text]
  dsimp only
  rw [beginAnswer]
  cases torAddrPortSplit (bytesText front) with
  | none => rfl
  | some out =>
      obtain ⟨address, port⟩ := out
      dsimp only
      by_cases zero : port = 0
      · rw [if_pos zero, if_pos zero]
        rfl
      rw [if_neg zero, if_neg zero]
      by_cases long : msg.length.toNat > front.length + 4
      · have flags := getUint32_eq (split_next split) (by omega)
        rw [length_snoc] at flags
        rw [if_pos long, flags]
        rfl
      · rw [if_neg long, flagsOf_short (by omega)]
        rfl

theorem beginCellParse_inside (msg : RelayMsg) : ∃ result, beginCellParse msg = .ok result := by
  by_cases dir : msg.command = RELAY_COMMAND_BEGIN_DIR
  · exact ⟨_, by rw [beginCellParse, if_pos dir]⟩
  by_cases command : msg.command = RELAY_COMMAND_BEGIN
  · by_cases nul : 0 ∈ msg.content
    · obtain ⟨front, rest, split, noNul⟩ := List.eq_append_cons_of_mem nul
      exact ⟨_, beginCellParse_eq command split noNul⟩
    · exact ⟨_, beginCellParse_noNul command nul⟩
  · exact ⟨_, by rw [beginCellParse, if_neg dir, if_pos command]⟩

end Reading

/-! ## From the client to the exit -/

section Destination
variable {t : Text} {socks : SocksRequest} {purpose : Purpose} {format : Format} {flags : BitVec 32} {streamId :
  BitVec 16}

theorem bytesText_textBytes (ascii : ∀ c ∈ t, 0 < c.toNat ∧ c.toNat < 128) : bytesText (textBytes t) = t := by
  rw [bytesText, textBytes, List.map_map]
  refine (List.map_congr_left fun c mem => ?_).trans (List.map_id t)
  have small := (ascii c mem).2
  rw [Function.comp_apply, BitVec.toNat_ofNat, Nat.mod_eq_of_lt (by omega), Char.ofNat_toNat, id]

theorem zero_not_mem_textBytes (ascii : ∀ c ∈ t, 0 < c.toNat ∧ c.toNat < 128) : 0 ∉ textBytes t := by
  intro mem
  obtain ⟨c, mem, zero⟩ := List.mem_map.mp mem
  have range := ascii c mem
  have same := congrArg BitVec.toNat zero
  rw [BitVec.toNat_ofNat, Nat.mod_eq_of_lt (by omega)] at same
  exact absurd same (by simp; omega)

theorem flagsOf_uint32Bytes (v : BitVec 32) : flagsOf (uint32Bytes v) = v := uint32Bytes_append v

theorem room_withPort (socks : SocksRequest) (format : Format) :
    (withPort socks.address socks.port.toNat).length + 5 ≤ relayCellMaxPayloadSize format RELAY_COMMAND_BEGIN - 4 := by
  have fits := socks.fits
  rw [MAX_SOCKS_ADDR_LEN] at fits
  have digits : (decimalDigits socks.port.toNat).length ≤ 5 := by
    rw [decimalDigits, Nat.length_toDigits_le_iff (by decide) (by decide)]
    have small := socks.port.isLt
    omega
  have large : 488 ≤ relayCellMaxPayloadSize format RELAY_COMMAND_BEGIN := by
    cases format <;> decide
  rw [withPort, List.length_append, List.length_cons]
  omega

theorem beginPayload_eq (sends : purpose ≠ .other) :
    beginPayload purpose socks flags (relayCellMaxPayloadSize format RELAY_COMMAND_BEGIN) =
      textBytes (withPort socks.address socks.port.toNat) ++ 0 :: if flags = 0 then [] else uint32Bytes flags := by
  have room := room_withPort socks format
  have address : (if purpose = .cGeneral ∨ purpose = .confluxLinked ∨ purpose = .controller then socks.address else []) =
      socks.address := by
    cases purpose with
    | cGeneral => rfl
    | confluxLinked => rfl
    | controller => rfl
    | other => exact absurd rfl sends
  have length : (textBytes (withPort socks.address socks.port.toNat) ++ [0]).length =
      (withPort socks.address socks.port.toNat).length + 1 := by
    rw [length_snoc, textBytes, List.length_map]
  rw [beginPayload, address, List.take_of_length_le (by omega), length]
  by_cases none : flags = 0
  · rw [if_neg (not_and_of_not_right _ (not_not.mpr none)), if_pos none]
  · rw [if_pos ⟨by omega, none⟩, if_neg none, List.append_assoc]
    rfl

theorem sendBegin_content (sends : purpose ≠ .other) :
    (connectionApHandshakeSendBegin format purpose false socks flags streamId).content =
      textBytes (withPort socks.address socks.port.toNat) ++ 0 :: if flags = 0 then [] else uint32Bytes flags := by
  have room := room_withPort socks format
  have small : relayCellMaxPayloadSize format RELAY_COMMAND_BEGIN ≤ 498 := by
    cases format <;> decide
  have tail : (if flags = 0 then [] else uint32Bytes flags).length ≤ 4 := by
    split
    · exact Nat.zero_le 4
    · exact le_rfl
  rw [RelayMsg.content, connectionApHandshakeSendBegin]
  dsimp only
  rw [beginPayload_eq sends, BitVec.toNat_ofNat, Nat.mod_eq_of_lt, List.take_length]
  rw [List.length_append, List.length_cons, textBytes, List.length_map]
  omega

theorem sendBegin_parsed (sends : purpose ≠ .other) (valid : stringIsValidDest socks.address = true)
    (port : socks.port ≠ 0) :
    beginCellParse (connectionApHandshakeSendBegin format purpose false socks flags streamId) =
      .ok (if Extends socks.address socks.port.toNat then .error .torprotocol
        else .ok ⟨some socks.address, flags, socks.port.toNat, streamId, false⟩) := by
  have ascii := @withPort_ascii socks.address socks.port.toNat valid
  have low : 1 ≤ socks.port.toNat := by
    have nonzero : socks.port.toNat ≠ 0 := fun zero => port (BitVec.eq_of_toNat_eq zero)
    omega
  have high : socks.port.toNat ≤ 65535 := Nat.le_of_lt_succ socks.port.isLt
  have read : flagsOf (if flags = 0 then [] else uint32Bytes flags) = flags := by
    split
    · rename_i none
      rw [none]
      rfl
    · exact flagsOf_uint32Bytes flags
  rw [beginCellParse_eq rfl (sendBegin_content sends) (zero_not_mem_textBytes ascii), bytesText_textBytes ascii,
    beginAnswer,
    torAddrPortSplit_withPort valid low high, read]
  by_cases address : Extends socks.address socks.port.toNat
  · rw [if_pos address, if_pos address]
    rfl
  · rw [if_neg address, if_neg address]
    dsimp only
    rw [if_neg (by omega)]
    rfl

end Destination

/-- The exit gets the destination, the port and the flags that the client sent it exactly where the destination with its
port is no IPv6 address; and no message makes it look at a byte outside. -/
theorem begin_destination (format : Format) (purpose : Purpose) (sends : purpose ≠ .other) (socks : SocksRequest)
    (valid : stringIsValidDest socks.address = true) (port : socks.port ≠ 0) (flags : BitVec 32) (streamId : BitVec 16) :
    (beginCellParse (connectionApHandshakeSendBegin format purpose false socks flags streamId) =
        .ok (.ok ⟨some socks.address, flags, socks.port.toNat, streamId, false⟩) ↔
      ¬ Extends socks.address socks.port.toNat) ∧
    ∀ msg : RelayMsg, ∃ result, beginCellParse msg = .ok result := by
  refine ⟨?_, beginCellParse_inside⟩
  rw [sendBegin_parsed sends valid port]
  by_cases address : Extends socks.address socks.port.toNat
  · rw [if_pos address]
    exact iff_of_false (fun same => by cases same) (not_not.mpr address)
  · rw [if_neg address]
    exact iff_of_true rfl address

theorem begin_destination_bracketed :
    beginCellParse (connectionApHandshakeSendBegin .v0 .cGeneral false ⟨"[::1]".toList, 80, by decide⟩ 1 7) =
      .ok (.ok ⟨some "[::1]".toList, 1, 80, 7, false⟩) :=
  (begin_destination .v0 .cGeneral (by decide) ⟨"[::1]".toList, 80, by decide⟩ (by decide) (by decide) 1 7).1.mpr
    (by decide)

/-- `::1` with port 80 is `::1:80`, an address without a port. -/
theorem begin_destination_lost :
    ¬ ∀ (format : Format) (purpose : Purpose) (socks : SocksRequest) (flags : BitVec 32) (streamId : BitVec 16),
      purpose = .cGeneral ∨ purpose = .confluxLinked → stringIsValidDest socks.address = true → socks.port ≠ 0 →
        beginCellParse (connectionApHandshakeSendBegin format purpose false socks flags streamId) =
          .ok (.ok ⟨some socks.address, flags, socks.port.toNat, streamId, false⟩) := by
  intro reaches
  have same := reaches .v0 .cGeneral ⟨"::1".toList, 80, by decide⟩ 0 7 (.inl rfl) (by decide) (by decide)
  rw [sendBegin_parsed (by decide) (by decide) (by decide), if_pos (by decide)] at same
  cases same

end TorJet.Relay
