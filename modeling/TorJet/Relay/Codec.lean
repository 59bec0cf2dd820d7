import Mathlib.Data.List.GetD

/-!
# Relay messages

Relay messages in the two formats of relay cells.
-/

namespace TorJet.Relay

abbrev Byte := BitVec 8

def CELL_PAYLOAD_SIZE : Nat := 509

abbrev Payload := Fin CELL_PAYLOAD_SIZE → Byte

/-! ## Bytes of a payload -/

def getUint8 (p : Payload) (off : Nat) : Byte := if inside : off < CELL_PAYLOAD_SIZE then p ⟨off, inside⟩ else 0

/-- `ntohs(get_uint16(...))` -/
def getUint16 (p : Payload) (off : Nat) : BitVec 16 := getUint8 p off ++ getUint8 p (off + 1)

/-- `memcpy` into the payload. -/
def write (p : Payload) (off : Nat) (bytes : List Byte) : Payload :=
  fun i => if off ≤ i.val then bytes.getD (i.val - off) (p i) else p i

def setUint8 (p : Payload) (off : Nat) (v : Byte) : Payload := write p off [v]

/-- `set_uint16(..., htons(v))` -/
def setUint16 (p : Payload) (off : Nat) (v : BitVec 16) : Payload := write p off [v.extractLsb' 8 8, v.extractLsb' 0 8]

/-- `set_uint16` of `htons`, in a block of its own. -/
def uint16Bytes (v : BitVec 16) : List Byte := [v.extractLsb' 8 8, v.extractLsb' 0 8]

/-- `set_uint32` of `htonl`, in a block of its own. -/
def uint32Bytes (v : BitVec 32) : List Byte :=
  [v.extractLsb' 24 8, v.extractLsb' 16 8, v.extractLsb' 8 8, v.extractLsb' 0 8]

theorem uint16Bytes_of_append (a b : Byte) : uint16Bytes (a ++ b) = [a, b] := by
  have high : (a ++ b).extractLsb' 8 8 = a := BitVec.extractLsb'_append_eq_left
  have low : (a ++ b).extractLsb' 0 8 = b := BitVec.extractLsb'_append_eq_right
  exact congrArg₂ (fun x y => [x, y]) high low

theorem uint16Bytes_append (v : BitVec 16) : v.extractLsb' 8 8 ++ v.extractLsb' 0 8 = v := by
  have whole : v.extractLsb' 8 8 ++ v.extractLsb' 0 8 = v.extractLsb' 0 16 :=
    BitVec.extractLsb'_append_extractLsb'_eq_extractLsb' (show 8 = 0 + 8 from rfl)
  rw [whole, BitVec.extractLsb'_eq_self]

theorem uint32Bytes_append (v : BitVec 32) :
    v.extractLsb' 24 8 ++ v.extractLsb' 16 8 ++ v.extractLsb' 8 8 ++ v.extractLsb' 0 8 = v := by
  have first : v.extractLsb' 24 8 ++ v.extractLsb' 16 8 = v.extractLsb' 16 16 :=
    BitVec.extractLsb'_append_extractLsb'_eq_extractLsb' (show 24 = 16 + 8 from rfl)
  have second : v.extractLsb' 16 16 ++ v.extractLsb' 8 8 = v.extractLsb' 8 24 :=
    BitVec.extractLsb'_append_extractLsb'_eq_extractLsb' (show 16 = 8 + 8 from rfl)
  have third : v.extractLsb' 8 24 ++ v.extractLsb' 0 8 = v.extractLsb' 0 32 :=
    BitVec.extractLsb'_append_extractLsb'_eq_extractLsb' (show 8 = 0 + 8 from rfl)
  rw [first, second, third, BitVec.extractLsb'_eq_self]

def bytesFrom (p : Payload) (off : Nat) : List Byte := (List.range (CELL_PAYLOAD_SIZE - off)).map fun k => getUint8 p (off + k)

section Bytes
variable {p : Payload} {off j : Nat} {bytes : List Byte}

theorem getUint8_write_before (before : j < off) : getUint8 (write p off bytes) j = getUint8 p j := by
  rw [getUint8, getUint8]
  split
  · rw [write, if_neg (Nat.not_le.mpr before)]
  · rfl

theorem getUint8_write {k : Nat} (there : k < bytes.length) (inside : off + k < CELL_PAYLOAD_SIZE) :
    getUint8 (write p off bytes) (off + k) = bytes.get ⟨k, there⟩ := by
  rw [getUint8, dif_pos inside, write, if_pos (Nat.le_add_right off k)]
  simp only [Nat.add_sub_cancel_left]
  rw [List.getD_eq_getElem _ _ there]
  rfl

theorem getUint16_write_before (before : j + 1 < off) : getUint16 (write p off bytes) j = getUint16 p j := by
  rw [getUint16, getUint16, getUint8_write_before (by omega), getUint8_write_before before]

theorem getUint8_set {v : Byte} (inside : off < CELL_PAYLOAD_SIZE) : getUint8 (setUint8 p off v) off = v := by
  rw [setUint8]
  exact getUint8_write (k := 0) (by simp) inside

theorem getUint16_set {v : BitVec 16} (inside : off + 1 < CELL_PAYLOAD_SIZE) : getUint16 (setUint16 p off v) off = v := by
  have high : getUint8 (setUint16 p off v) off = v.extractLsb' 8 8 := by
    rw [setUint16]
    exact getUint8_write (k := 0) (by simp) (by omega)
  have low : getUint8 (setUint16 p off v) (off + 1) = v.extractLsb' 0 8 := by
    rw [setUint16]
    exact getUint8_write (k := 1) (by simp) inside
  rw [getUint16, high, low]
  apply BitVec.eq_of_getLsbD_eq
  intro i small
  rw [BitVec.getLsbD_append, BitVec.getLsbD_extractLsb', BitVec.getLsbD_extractLsb']
  by_cases low : i < 8
  · simp [low]
  · simp [low, show i - 8 < 8 by omega, show 8 + (i - 8) = i by omega]

@[simp] theorem length_bytesFrom : (bytesFrom p off).length = CELL_PAYLOAD_SIZE - off := by simp [bytesFrom]

theorem bytesFrom_write (fits : off + bytes.length ≤ CELL_PAYLOAD_SIZE) :
    (bytesFrom (write p off bytes) off).take bytes.length = bytes := by
  apply List.ext_getElem
  · rw [List.length_take, length_bytesFrom]
    omega
  · intro k _ there
    rw [List.getElem_take]
    simp only [bytesFrom, List.getElem_map, List.getElem_range]
    exact getUint8_write there (by omega)

theorem bytesFrom_write_after {n : Nat} {more : List Byte} {end_ : Nat} (after : off + n ≤ end_) :
    (bytesFrom (write p end_ more) off).take n = (bytesFrom p off).take n := by
  apply List.ext_getElem
  · simp
  · intro k inTake _
    rw [List.length_take] at inTake
    rw [List.getElem_take, List.getElem_take]
    simp only [bytesFrom, List.getElem_map, List.getElem_range]
    exact getUint8_write_before (by omega)

end Bytes

/-! ## Commands -/

def RELAY_COMMAND_BEGIN : Byte := 1
def RELAY_COMMAND_DATA : Byte := 2
def RELAY_COMMAND_END : Byte := 3
def RELAY_COMMAND_CONNECTED : Byte := 4
def RELAY_COMMAND_SENDME : Byte := 5
def RELAY_COMMAND_EXTEND : Byte := 6
def RELAY_COMMAND_EXTENDED : Byte := 7
def RELAY_COMMAND_TRUNCATE : Byte := 8
def RELAY_COMMAND_TRUNCATED : Byte := 9
def RELAY_COMMAND_DROP : Byte := 10
def RELAY_COMMAND_RESOLVE : Byte := 11
def RELAY_COMMAND_RESOLVED : Byte := 12
def RELAY_COMMAND_BEGIN_DIR : Byte := 13
def RELAY_COMMAND_EXTEND2 : Byte := 14
def RELAY_COMMAND_EXTENDED2 : Byte := 15
def RELAY_COMMAND_CONFLUX_LINK : Byte := 19
def RELAY_COMMAND_CONFLUX_LINKED : Byte := 20
def RELAY_COMMAND_CONFLUX_LINKED_ACK : Byte := 21
def RELAY_COMMAND_CONFLUX_SWITCH : Byte := 22
def RELAY_COMMAND_ESTABLISH_INTRO : Byte := 32
def RELAY_COMMAND_ESTABLISH_RENDEZVOUS : Byte := 33
def RELAY_COMMAND_INTRODUCE1 : Byte := 34
def RELAY_COMMAND_INTRODUCE2 : Byte := 35
def RELAY_COMMAND_RENDEZVOUS1 : Byte := 36
def RELAY_COMMAND_RENDEZVOUS2 : Byte := 37
def RELAY_COMMAND_INTRO_ESTABLISHED : Byte := 38
def RELAY_COMMAND_RENDEZVOUS_ESTABLISHED : Byte := 39
def RELAY_COMMAND_INTRODUCE_ACK : Byte := 40
def RELAY_COMMAND_PADDING_NEGOTIATE : Byte := 41
def RELAY_COMMAND_PADDING_NEGOTIATED : Byte := 42
def RELAY_COMMAND_XOFF : Byte := 43
def RELAY_COMMAND_XON : Byte := 44

def isKnownRelayCommand (cmd : Byte) : Bool :=
  cmd ∈ [RELAY_COMMAND_BEGIN, RELAY_COMMAND_BEGIN_DIR, RELAY_COMMAND_CONFLUX_LINK, RELAY_COMMAND_CONFLUX_LINKED,
    RELAY_COMMAND_CONFLUX_LINKED_ACK, RELAY_COMMAND_CONFLUX_SWITCH, RELAY_COMMAND_CONNECTED, RELAY_COMMAND_DATA,
    RELAY_COMMAND_DROP, RELAY_COMMAND_END, RELAY_COMMAND_ESTABLISH_INTRO, RELAY_COMMAND_ESTABLISH_RENDEZVOUS,
    RELAY_COMMAND_EXTEND2, RELAY_COMMAND_EXTEND, RELAY_COMMAND_EXTENDED2, RELAY_COMMAND_EXTENDED,
    RELAY_COMMAND_INTRODUCE1, RELAY_COMMAND_INTRODUCE2, RELAY_COMMAND_INTRODUCE_ACK, RELAY_COMMAND_INTRO_ESTABLISHED,
    RELAY_COMMAND_PADDING_NEGOTIATE, RELAY_COMMAND_PADDING_NEGOTIATED, RELAY_COMMAND_RENDEZVOUS1,
    RELAY_COMMAND_RENDEZVOUS2, RELAY_COMMAND_RENDEZVOUS_ESTABLISHED, RELAY_COMMAND_RESOLVE, RELAY_COMMAND_RESOLVED,
    RELAY_COMMAND_SENDME, RELAY_COMMAND_TRUNCATE, RELAY_COMMAND_TRUNCATED, RELAY_COMMAND_XOFF, RELAY_COMMAND_XON]

def relayCmdExpectsStreamidInV1 (relayCommand : Byte) : Bool :=
  relayCommand ∈ [RELAY_COMMAND_BEGIN, RELAY_COMMAND_BEGIN_DIR, RELAY_COMMAND_CONNECTED, RELAY_COMMAND_DATA,
    RELAY_COMMAND_END, RELAY_COMMAND_RESOLVE, RELAY_COMMAND_RESOLVED, RELAY_COMMAND_XOFF, RELAY_COMMAND_XON]

/-! ## Messages and cells -/

inductive Format
  | v0
  | v1
  deriving DecidableEq, Repr

def RELAY_HEADER_SIZE_V0 : Nat := 1 + 2 + 2 + 4 + 2

def RELAY_HEADER_SIZE_V1_NO_STREAM_ID : Nat := 16 + 1 + 2

def RELAY_HEADER_SIZE_V1_WITH_STREAM_ID : Nat := 16 + 1 + 2 + 2

def relayCellMaxPayloadSize (format : Format) (relayCommand : Byte) : Nat :=
  match format with
  | .v0 => CELL_PAYLOAD_SIZE - RELAY_HEADER_SIZE_V0
  | .v1 =>
      if relayCmdExpectsStreamidInV1 relayCommand then CELL_PAYLOAD_SIZE - RELAY_HEADER_SIZE_V1_WITH_STREAM_ID
      else CELL_PAYLOAD_SIZE - RELAY_HEADER_SIZE_V1_NO_STREAM_ID

/-- `relay_msg_t`: `body` is what the pointer points to, of which `length` bytes are the message. -/
structure RelayMsg where
  command : Byte
  length : BitVec 16
  streamId : BitVec 16
  isRelayEarly : Bool
  body : List Byte
  available : length.toNat ≤ body.length

def RelayMsg.content (msg : RelayMsg) : List Byte := msg.body.take msg.length.toNat

theorem RelayMsg.length_content (msg : RelayMsg) : msg.content.length = msg.length.toNat := by
  rw [RelayMsg.content, List.length_take, Nat.min_eq_left msg.available]

def CELL_RELAY : Byte := 3

def CELL_RELAY_EARLY : Byte := 9

structure Cell where
  circId : BitVec 32
  command : Byte
  payload : Payload

/-! Positions of the fields. -/

def V0_CMD_OFFSET : Nat := 0
def V0_STREAM_ID_OFFSET : Nat := 3
def V0_LEN_OFFSET : Nat := 9
def V0_PAYLOAD_OFFSET : Nat := 11
def V1_CMD_OFFSET : Nat := 16
def V1_LEN_OFFSET : Nat := 17
def V1_STREAM_ID_OFFSET : Nat := 19
def V1_PAYLOAD_OFFSET_NO_STREAM_ID : Nat := 19
def V1_PAYLOAD_OFFSET_WITH_STREAM_ID : Nat := 21

/-- `random` gives the bytes that the generator is asked for. -/
def relayCellPad (random : Nat → List Byte) (p : Payload) (endOfMessage : Nat) : Payload :=
  let skip := 4
  if CELL_PAYLOAD_SIZE ≤ endOfMessage + skip then p
  else write p (endOfMessage + skip) (random (CELL_PAYLOAD_SIZE - (endOfMessage + skip)))

def encodeV0Cell (random : Nat → List Byte) (msg : RelayMsg) (out : Payload) : Option Payload :=
  if relayCellMaxPayloadSize .v0 msg.command < msg.length.toNat then none
  else
    let out := setUint8 out V0_CMD_OFFSET msg.command
    let out := setUint16 out V0_STREAM_ID_OFFSET msg.streamId
    let out := setUint16 out V0_LEN_OFFSET msg.length
    let out := write out RELAY_HEADER_SIZE_V0 msg.content
    some (relayCellPad random out (RELAY_HEADER_SIZE_V0 + msg.length.toNat))

def encodeV1Cell (random : Nat → List Byte) (msg : RelayMsg) (out : Payload) : Option Payload :=
  if relayCellMaxPayloadSize .v1 msg.command < msg.length.toNat then none
  else
    let out := setUint8 out V1_CMD_OFFSET msg.command
    let out := setUint16 out V1_LEN_OFFSET msg.length
    if relayCmdExpectsStreamidInV1 msg.command then
      if msg.streamId = 0 then none
      else
        let out := setUint16 out V1_STREAM_ID_OFFSET msg.streamId
        let out := write out V1_PAYLOAD_OFFSET_WITH_STREAM_ID msg.content
        some (relayCellPad random out (V1_PAYLOAD_OFFSET_WITH_STREAM_ID + msg.length.toNat))
    else if msg.streamId ≠ 0 then none
    else
      let out := write out V1_PAYLOAD_OFFSET_NO_STREAM_ID msg.content
      some (relayCellPad random out (V1_PAYLOAD_OFFSET_NO_STREAM_ID + msg.length.toNat))

/-- The message whose body is in the cell from `offset` on, if it is inside. -/
def decodeBody (cell : Cell) (command : Byte) (length streamId : BitVec 16) (offset : Nat) : Option RelayMsg :=
  if inside : length.toNat ≤ CELL_PAYLOAD_SIZE - offset then
    some {
      command, length, streamId
      isRelayEarly := cell.command = CELL_RELAY_EARLY
      body := bytesFrom cell.payload offset
      available := by rwa [length_bytesFrom] }
  else none

def decodeV0Cell (cell : Cell) : Option RelayMsg :=
  let body := cell.payload
  let command := getUint8 body V0_CMD_OFFSET
  let streamId := getUint16 body V0_STREAM_ID_OFFSET
  let length := getUint16 body V0_LEN_OFFSET
  decodeBody cell command length streamId V0_PAYLOAD_OFFSET

def decodeV1Cell (cell : Cell) : Option RelayMsg :=
  let body := cell.payload
  let command := getUint8 body V1_CMD_OFFSET
  if !isKnownRelayCommand command then none
  else
    let length := getUint16 body V1_LEN_OFFSET
    if relayCmdExpectsStreamidInV1 command then
      decodeBody cell command length (getUint16 body V1_STREAM_ID_OFFSET) V1_PAYLOAD_OFFSET_WITH_STREAM_ID
    else decodeBody cell command length 0 V1_PAYLOAD_OFFSET_NO_STREAM_ID

def relayMsgEncodeCell (random : Nat → List Byte) (format : Format) (msg : RelayMsg) : Option Cell :=
  let payload :=
    match format with
    | .v0 => encodeV0Cell random msg fun _ => 0
    | .v1 => encodeV1Cell random msg fun _ => 0
  payload.map fun payload =>
    { circId := 0, command := if msg.isRelayEarly then CELL_RELAY_EARLY else CELL_RELAY, payload }

def relayMsgDecodeCell (format : Format) (cell : Cell) : Option RelayMsg :=
  match format with
  | .v0 => decodeV0Cell cell
  | .v1 => decodeV1Cell cell

end TorJet.Relay

/-!
## Encoding and decoding relay messages

A message that is encoded is decoded as it was, and what is decoded can be encoded again, up to what only one side checks.
-/

namespace TorJet.Relay

section Pad
variable {random : Nat → List Byte} {p : Payload} {end_ j : Nat}

theorem getUint8_pad (before : j < end_) : getUint8 (relayCellPad random p end_) j = getUint8 p j := by
  simp only [relayCellPad]
  split
  · rfl
  · exact getUint8_write_before (by omega)

theorem getUint16_pad (before : j + 1 < end_) : getUint16 (relayCellPad random p end_) j = getUint16 p j := by
  rw [getUint16, getUint16, getUint8_pad (by omega), getUint8_pad before]

theorem bytesFrom_pad {off n : Nat} (before : off + n ≤ end_) :
    (bytesFrom (relayCellPad random p end_) off).take n = (bytesFrom p off).take n := by
  simp only [relayCellPad]
  split
  · rfl
  · exact bytesFrom_write_after (by omega)

end Pad

structure Layout where
  cmd : Nat
  len : Nat
  sid : Option Nat
  payload : Nat

def layout (format : Format) (relayCommand : Byte) : Layout :=
  match format with
  | .v0 => ⟨V0_CMD_OFFSET, V0_LEN_OFFSET, some V0_STREAM_ID_OFFSET, V0_PAYLOAD_OFFSET⟩
  | .v1 =>
      if relayCmdExpectsStreamidInV1 relayCommand then
        ⟨V1_CMD_OFFSET, V1_LEN_OFFSET, some V1_STREAM_ID_OFFSET, V1_PAYLOAD_OFFSET_WITH_STREAM_ID⟩
      else ⟨V1_CMD_OFFSET, V1_LEN_OFFSET, none, V1_PAYLOAD_OFFSET_NO_STREAM_ID⟩

structure Holds (l : Layout) (p : Payload) (msg : RelayMsg) : Prop where
  cmd : getUint8 p l.cmd = msg.command
  len : getUint16 p l.len = msg.length
  sid : l.sid.elim 0 (getUint16 p) = msg.streamId
  content : (bytesFrom p l.payload).take msg.length.toNat = msg.content

def StreamIdFits (format : Format) (msg : RelayMsg) : Prop :=
  format = .v1 → (relayCmdExpectsStreamidInV1 msg.command = true ↔ msg.streamId ≠ 0)

section Encode
variable {random : Nat → List Byte} {format : Format} {msg out : RelayMsg} {cell : Cell} {p : Payload}

theorem maxPayloadSize_eq (format : Format) (cmd : Byte) :
    relayCellMaxPayloadSize format cmd = CELL_PAYLOAD_SIZE - (layout format cmd).payload := by
  cases format with
  | v0 => rfl
  | v1 =>
      rw [relayCellMaxPayloadSize, layout]
      split <;> rfl

theorem holds_of_writes {l : Layout} {q : Payload} (fits : msg.length.toNat ≤ CELL_PAYLOAD_SIZE - l.payload)
    (start : l.payload ≤ CELL_PAYLOAD_SIZE) (cmdBefore : l.cmd < l.payload) (lenBefore : l.len + 1 < l.payload)
    (sidBefore : ∀ off ∈ l.sid, off + 1 < l.payload) (cmd : getUint8 q l.cmd = msg.command)
    (len : getUint16 q l.len = msg.length) (sid : l.sid.elim 0 (getUint16 q) = msg.streamId) :
    Holds l (relayCellPad random (write q l.payload msg.content) (l.payload + msg.length.toNat)) msg where
  cmd := by rw [getUint8_pad (by omega), getUint8_write_before cmdBefore, cmd]
  len := by rw [getUint16_pad (by omega), getUint16_write_before lenBefore, len]
  sid := by
    rw [← sid]
    cases place : l.sid with
    | none => rfl
    | some off =>
        have before := sidBefore off place
        simp only [Option.elim_some]
        rw [getUint16_pad (by omega), getUint16_write_before before]
  content := by
    have length := msg.length_content
    have back : (bytesFrom (write q l.payload msg.content) l.payload).take msg.content.length = msg.content :=
      bytesFrom_write (by omega)
    rw [bytesFrom_pad (Nat.le_refl _)]
    rwa [length] at back

theorem encodeV0_spec : (∀ payload, encodeV0Cell random msg p = some payload → Holds (layout .v0 msg.command) payload msg) ∧
    ((encodeV0Cell random msg p).isSome ↔ msg.length.toNat ≤ relayCellMaxPayloadSize .v0 msg.command) := by
  rw [encodeV0Cell]
  split
  · rename_i long
    simp [Nat.not_le.mpr long]
  · rename_i fits
    refine ⟨fun payload encoded => ?_, by simp [Nat.not_lt.mp fits]⟩
    obtain rfl := Option.some.inj encoded
    have place : layout .v0 msg.command = ⟨V0_CMD_OFFSET, V0_LEN_OFFSET, .some V0_STREAM_ID_OFFSET, V0_PAYLOAD_OFFSET⟩ := rfl
    rw [Nat.not_lt, maxPayloadSize_eq] at fits
    rw [place] at fits ⊢
    refine holds_of_writes fits (by decide) (by decide) (by decide) (by decide) ?_ ?_ ?_
    · dsimp only
      rw [setUint16, getUint8_write_before (by decide), setUint16, getUint8_write_before (by decide),
        getUint8_set (by decide)]
    · exact getUint16_set (by decide)
    · simp only [Option.elim_some]
      rw [setUint16, getUint16_write_before (by decide), getUint16_set (by decide)]

theorem encodeV1_spec : (∀ payload, encodeV1Cell random msg p = some payload → Holds (layout .v1 msg.command) payload msg) ∧
    ((encodeV1Cell random msg p).isSome ↔
      msg.length.toNat ≤ relayCellMaxPayloadSize .v1 msg.command ∧ StreamIdFits .v1 msg) := by
  have fitsIff : StreamIdFits .v1 msg ↔ (relayCmdExpectsStreamidInV1 msg.command = true ↔ msg.streamId ≠ 0) :=
    ⟨fun fits => fits rfl, fun fits _ => fits⟩
  rw [encodeV1Cell, fitsIff]
  split
  · rename_i long
    simp [Nat.not_le.mpr long]
  · rename_i fits
    rw [Nat.not_lt] at fits
    dsimp only
    split
    · rename_i expects
      split
      · rename_i none
        simp [none, expects]
      · rename_i some
        refine ⟨fun payload encoded => ?_, fun _ => ⟨fits, fun _ => some, fun _ => expects⟩, fun _ => rfl⟩
        obtain rfl := Option.some.inj encoded
        have place : layout .v1 msg.command =
            ⟨V1_CMD_OFFSET, V1_LEN_OFFSET, .some V1_STREAM_ID_OFFSET, V1_PAYLOAD_OFFSET_WITH_STREAM_ID⟩ := if_pos expects
        rw [maxPayloadSize_eq] at fits
        rw [place] at fits ⊢
        refine holds_of_writes fits (by decide) (by decide) (by decide) (by decide) ?_ ?_ ?_
        · dsimp only
          rw [setUint16, getUint8_write_before (by decide), setUint16, getUint8_write_before (by decide),
            getUint8_set (by decide)]
        · dsimp only
          rw [setUint16, getUint16_write_before (by decide), getUint16_set (by decide)]
        · exact getUint16_set (by decide)
    · rename_i expects
      split
      · rename_i some
        constructor
        · intro payload encoded
          cases encoded
        · constructor
          · intro isSome
            cases isSome
          · rintro ⟨-, same⟩
            exact absurd (same.mpr some) expects
      · rename_i none
        rw [not_not] at none
        refine ⟨fun payload encoded => ?_, fun _ => ⟨fits, fun yes => absurd yes expects, fun some => absurd none some⟩, fun _ => rfl⟩
        obtain rfl := Option.some.inj encoded
        have place : layout .v1 msg.command =
            ⟨V1_CMD_OFFSET, V1_LEN_OFFSET, .none, V1_PAYLOAD_OFFSET_NO_STREAM_ID⟩ := if_neg expects
        rw [maxPayloadSize_eq] at fits
        rw [place] at fits ⊢
        refine holds_of_writes fits (by decide) (by decide) (by decide) (by simp) ?_ ?_ none.symm
        · dsimp only
          rw [setUint16, getUint8_write_before (by decide), getUint8_set (by decide)]
        · exact getUint16_set (by decide)

theorem encode_isSome_iff : (relayMsgEncodeCell random format msg).isSome ↔
    msg.length.toNat ≤ relayCellMaxPayloadSize format msg.command ∧ StreamIdFits format msg := by
  cases format with
  | v0 =>
      simp only [relayMsgEncodeCell, Option.isSome_map]
      rw [encodeV0_spec.2]
      simp [StreamIdFits]
  | v1 =>
      simp only [relayMsgEncodeCell, Option.isSome_map]
      exact encodeV1_spec.2

theorem encode_holds (encoded : relayMsgEncodeCell random format msg = some cell) :
    Holds (layout format msg.command) cell.payload msg ∧
      cell.command = if msg.isRelayEarly then CELL_RELAY_EARLY else CELL_RELAY := by
  obtain ⟨payload, written, rfl⟩ := Option.map_eq_some_iff.mp encoded
  refine ⟨?_, rfl⟩
  cases format with
  | v0 => exact encodeV0_spec.1 payload written
  | v1 => exact encodeV1_spec.1 payload written

end Encode

structure Same (a b : RelayMsg) : Prop where
  command : a.command = b.command
  streamId : a.streamId = b.streamId
  length : a.length = b.length
  content : a.content = b.content
  isRelayEarly : a.isRelayEarly = b.isRelayEarly

def Decodable (format : Format) (cmd : Byte) : Prop := format = .v1 → isKnownRelayCommand cmd = true

instance (format : Format) (cmd : Byte) : Decidable (Decodable format cmd) :=
  inferInstanceAs (Decidable (format = .v1 → isKnownRelayCommand cmd = true))

section Decode
variable {random : Nat → List Byte} {format : Format} {msg out : RelayMsg} {cell : Cell}

theorem decodeBody_spec {cmd : Byte} {length streamId : BitVec 16} {offset : Nat} :
    decodeBody cell cmd length streamId offset = some out ↔
      length.toNat ≤ CELL_PAYLOAD_SIZE - offset ∧ out.command = cmd ∧ out.length = length ∧ out.streamId = streamId ∧
        out.isRelayEarly = decide (cell.command = CELL_RELAY_EARLY) ∧ out.body = bytesFrom cell.payload offset := by
  rw [decodeBody]
  constructor
  · intro decoded
    split at decoded
    · rename_i inside
      obtain rfl := Option.some.inj decoded
      exact ⟨inside, rfl, rfl, rfl, rfl, rfl⟩
    · cases decoded
  · rintro ⟨inside, command, length, streamId, early, body⟩
    rw [dif_pos inside]
    cases out
    cases command
    cases length
    cases streamId
    cases early
    cases body
    rfl

def Format.cmdOffset : Format → Nat
  | .v0 => V0_CMD_OFFSET
  | .v1 => V1_CMD_OFFSET

theorem layout_cmd (format : Format) (cmd : Byte) : (layout format cmd).cmd = format.cmdOffset := by
  cases format with
  | v0 => rfl
  | v1 =>
      rw [layout]
      split <;> rfl

theorem layout_payload_le (format : Format) (cmd : Byte) : (layout format cmd).payload ≤ CELL_PAYLOAD_SIZE := by
  cases format with
  | v0 => exact (by decide : V0_PAYLOAD_OFFSET ≤ CELL_PAYLOAD_SIZE)
  | v1 =>
      rw [layout]
      split <;> decide

theorem decode_eq (format : Format) (cell : Cell) :
    relayMsgDecodeCell format cell =
      if Decodable format (getUint8 cell.payload format.cmdOffset) then
        decodeBody cell (getUint8 cell.payload format.cmdOffset)
          (getUint16 cell.payload (layout format (getUint8 cell.payload format.cmdOffset)).len)
          ((layout format (getUint8 cell.payload format.cmdOffset)).sid.elim 0 (getUint16 cell.payload))
          (layout format (getUint8 cell.payload format.cmdOffset)).payload
      else none := by
  cases format with
  | v0 =>
      have decodable (cmd : Byte) : Decodable .v0 cmd := by
        intro other
        cases other
      rw [if_pos (decodable _)]
      rfl
  | v1 =>
      simp only [relayMsgDecodeCell, decodeV1Cell]
      rw [Format.cmdOffset]
      split
      · rename_i unknown
        rw [if_neg]
        intro decodable
        rw [decodable rfl] at unknown
        cases unknown
      · rename_i known
        rw [Bool.not_eq_true, Bool.not_eq_false'] at known
        rw [if_pos (show Decodable .v1 (getUint8 cell.payload V1_CMD_OFFSET) from fun _ => known), layout]
        split <;> rfl

theorem decode_inside (decoded : relayMsgDecodeCell format cell = some out) :
    Decodable format out.command ∧ (layout format out.command).payload + out.length.toNat ≤ CELL_PAYLOAD_SIZE ∧
      out.body = bytesFrom cell.payload (layout format out.command).payload := by
  rw [decode_eq] at decoded
  split at decoded
  · rename_i decodable
    obtain ⟨inside, command, length, -, -, body⟩ := decodeBody_spec.mp decoded
    rw [command]
    rw [length]
    refine ⟨decodable, ?_, body⟩
    have start := layout_payload_le format (getUint8 cell.payload format.cmdOffset)
    omega
  · cases decoded

theorem decode_streamId (decoded : relayMsgDecodeCell .v1 cell = some out)
    (none : relayCmdExpectsStreamidInV1 out.command = false) : out.streamId = 0 := by
  rw [decode_eq] at decoded
  split at decoded
  · obtain ⟨-, command, -, streamId, -, -⟩ := decodeBody_spec.mp decoded
    rw [streamId, ← command, layout, none]
    rfl
  · cases decoded

theorem decode_of_holds (holds : Holds (layout format msg.command) cell.payload msg)
    (short : msg.length.toNat ≤ relayCellMaxPayloadSize format msg.command) (decodable : Decodable format msg.command) :
    ∃ out, relayMsgDecodeCell format cell = some out ∧ out.command = msg.command ∧ out.streamId = msg.streamId ∧
      out.length = msg.length ∧ out.content = msg.content ∧
      out.isRelayEarly = decide (cell.command = CELL_RELAY_EARLY) := by
  have cmd : getUint8 cell.payload format.cmdOffset = msg.command := by
    rw [← layout_cmd format msg.command]
    exact holds.cmd
  rw [maxPayloadSize_eq] at short
  rw [decode_eq, cmd, if_pos decodable, holds.len, holds.sid, decodeBody, dif_pos short]
  exact ⟨_, rfl, rfl, rfl, rfl, holds.content, rfl⟩

end Decode

/-- Every message that is encoded is decoded as it was exactly where the decoder takes its command; the encoder takes
exactly the messages that are short enough with a stream ID that fits; and what is decoded has its body inside the
cell and is encoded again exactly where it has the stream ID that its command expects. -/
theorem relay_msg_codec (random : Nat → List Byte) (format : Format) :
    (∀ msg cell, relayMsgEncodeCell random format msg = some cell →
      ((∃ out, relayMsgDecodeCell format cell = some out ∧ Same out msg) ↔ Decodable format msg.command)) ∧
    (∀ msg, msg.length.toNat ≤ relayCellMaxPayloadSize format msg.command → StreamIdFits format msg →
      (relayMsgEncodeCell random format msg).isSome) ∧
    ∀ cell out, relayMsgDecodeCell format cell = some out →
      (∃ offset, offset + out.length.toNat ≤ CELL_PAYLOAD_SIZE ∧ out.body = bytesFrom cell.payload offset) ∧
        ((relayMsgEncodeCell random format out).isSome ↔
          (format = .v1 → relayCmdExpectsStreamidInV1 out.command = true → out.streamId ≠ 0)) := by
  refine ⟨fun msg cell encoded => ⟨?_, fun decodable => ?_⟩, fun msg short fits => encode_isSome_iff.mpr ⟨short, fits⟩,
    fun cell out decoded => ?_⟩
  · rintro ⟨out, decoded, same⟩
    rw [← same.command]
    exact (decode_inside decoded).1
  · obtain ⟨holds, command⟩ := encode_holds encoded
    have short := (encode_isSome_iff.mp (by rw [encoded]; rfl)).1
    obtain ⟨out, decoded, cmd, streamId, length, content, early⟩ := decode_of_holds holds short decodable
    refine ⟨out, decoded, cmd, streamId, length, content, ?_⟩
    rw [early, command]
    cases msg.isRelayEarly <;> rfl
  · obtain ⟨-, inside, body⟩ := decode_inside decoded
    refine ⟨⟨_, inside, body⟩, ?_⟩
    have short : out.length.toNat ≤ relayCellMaxPayloadSize format out.command := by
      rw [maxPayloadSize_eq]
      omega
    rw [encode_isSome_iff, and_iff_right short]
    constructor
    · intro fits v1 expects
      exact (fits v1).mp expects
    · rintro present rfl
      constructor
      · exact present rfl
      · intro some
        cases expects : relayCmdExpectsStreamidInV1 out.command with
        | true => rfl
        | false => exact absurd (decode_streamId decoded expects) some

def oneByte (command : Byte) (streamId : BitVec 16) : RelayMsg where
  command
  length := 1
  streamId
  isRelayEarly := true
  body := [7]
  available := by decide

theorem data_message_back : ∃ cell out,
    relayMsgEncodeCell (fun n => List.replicate n 255) .v1 (oneByte RELAY_COMMAND_DATA 592) = some cell ∧
      relayMsgDecodeCell .v1 cell = some out ∧ Same out (oneByte RELAY_COMMAND_DATA 592) := by
  obtain ⟨back, accepts, -⟩ := relay_msg_codec (fun n => List.replicate n 255) .v1
  have isSome := accepts (oneByte RELAY_COMMAND_DATA 592) (by decide) fun _ => by decide
  obtain ⟨cell, encoded⟩ := Option.isSome_iff_exists.mp isSome
  obtain ⟨out, decoded, same⟩ := (back _ cell encoded).mpr fun _ => by decide
  exact ⟨cell, out, encoded, decoded, same⟩

/-- The encoder takes a command that the decoder does not know, and the decoder takes a stream without an ID. -/
theorem checks_differ :
    (¬ ∀ random format msg cell, relayMsgEncodeCell random format msg = some cell →
      ∃ out, relayMsgDecodeCell format cell = some out ∧ Same out msg) ∧
    ¬ ∀ random format cell out, relayMsgDecodeCell format cell = some out →
      (relayMsgEncodeCell random format out).isSome := by
  constructor
  · intro back
    have isSome := (@encode_isSome_iff (fun _ => []) .v1 (oneByte 200 0)).mpr ⟨by decide, fun _ => by decide⟩
    obtain ⟨cell, encoded⟩ := Option.isSome_iff_exists.mp isSome
    obtain ⟨out, decoded, same⟩ := back _ .v1 _ cell encoded
    have known := (decode_inside decoded).1 rfl
    rw [same.command] at known
    exact absurd known (by decide)
  · intro accepts
    let cell : Cell := ⟨0, CELL_RELAY, setUint8 (fun _ => 0) V1_CMD_OFFSET RELAY_COMMAND_DATA⟩
    have decoded : ∃ out, relayMsgDecodeCell .v1 cell = some out ∧ out.command = RELAY_COMMAND_DATA ∧ out.streamId = 0 := by
      refine ⟨_, dif_pos (by decide : (getUint16 cell.payload V1_LEN_OFFSET).toNat ≤ _), by decide, by decide⟩
    obtain ⟨out, decoded, command, streamId⟩ := decoded
    have fits := (encode_isSome_iff.mp (accepts (fun _ => []) .v1 cell out decoded)).2 rfl
    rw [command] at fits
    exact fits.mp (by decide) streamId

end TorJet.Relay
