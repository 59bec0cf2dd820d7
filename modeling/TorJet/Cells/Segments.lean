import Mathlib.Algebra.Order.Ring.Nat
import TorJet.Base.Framing
import TorJet.Relay.Codec

/-!
# Cells on a connection

How cells are written to the buffer of an OR connection, and taken off the buffer of the other end.
-/

namespace TorJet.Cells
open Base
open Relay (Byte Payload CELL_PAYLOAD_SIZE bytesFrom uint16Bytes uint32Bytes)

/-! ## Sizes -/

def CELL_MAX_NETWORK_SIZE : Nat := 514

def VAR_CELL_MAX_HEADER_SIZE : Nat := 7

def MIN_LINK_PROTO_FOR_WIDE_CIRC_IDS : Int := 4

def CELL_VERSIONS : Byte := 7

def isWide (linkProto : Int) : Bool := decide (MIN_LINK_PROTO_FOR_WIDE_CIRC_IDS ≤ linkProto)

def getCellNetworkSize (wideCircIds : Bool) : Nat :=
  if wideCircIds then CELL_MAX_NETWORK_SIZE else CELL_MAX_NETWORK_SIZE - 2

def getVarCellHeaderSize (wideCircIds : Bool) : Nat :=
  if wideCircIds then VAR_CELL_MAX_HEADER_SIZE else VAR_CELL_MAX_HEADER_SIZE - 2

def getCircIdSize (wideCircIds : Bool) : Nat := if wideCircIds then 4 else 2

/-! ## Cells -/

structure Cell where
  circId : BitVec 32
  command : Byte
  payload : Payload

@[ext]
structure VarCell where
  command : Byte
  circId : BitVec 32
  payloadLen : BitVec 16
  payload : List Byte
  size : payload.length = payloadLen.toNat

/-- What is written, and what is handed to `channel_tls_handle_cell` or `channel_tls_handle_var_cell`. -/
inductive AnyCell
  | fixed (cell : Cell)
  | var (cell : VarCell)

structure OrConn where
  linkProto : Int
  wideCircIds : Bool
  inbuf : List Byte
  outbuf : List Byte
  handled : List AnyCell

def cellCommandIsVarLength (command : Byte) (linkproto : Int) : Bool :=
  match linkproto with
  | 1 => false
  | 2 => command = CELL_VERSIONS
  | _ => command = CELL_VERSIONS || 128 ≤ command.toNat

/-! ## Writing -/

def circIdBytes (circId : BitVec 32) (wideCircIds : Bool) : List Byte :=
  if wideCircIds then uint32Bytes circId else uint16Bytes (circId.setWidth 16)

/-- `cell_pack`; the last two bytes of the body are cleared where the circuit id is narrow. -/
def cellPack (src : Cell) (wideCircIds : Bool) : List Byte :=
  circIdBytes src.circId wideCircIds ++ src.command :: bytesFrom src.payload 0 ++ if wideCircIds then [] else [0, 0]

def connectionOrWriteCellToBuf (cell : Cell) (conn : OrConn) : OrConn :=
  { conn with
    outbuf := conn.outbuf ++ (cellPack cell conn.wideCircIds).take (getCellNetworkSize conn.wideCircIds) }

def varCellPackHeader (cell : VarCell) (wideCircIds : Bool) : List Byte :=
  circIdBytes cell.circId wideCircIds ++ cell.command :: uint16Bytes cell.payloadLen

def connectionOrWriteVarCellToBuf (cell : VarCell) (conn : OrConn) : OrConn :=
  { conn with outbuf := conn.outbuf ++ varCellPackHeader cell conn.wideCircIds ++ cell.payload }

def writeAnyCell (conn : OrConn) : AnyCell → OrConn
  | .fixed cell => connectionOrWriteCellToBuf cell conn
  | .var cell => connectionOrWriteVarCellToBuf cell conn

/-! ## Reading -/

/-- A failed `tor_assert`, or a loop that was stopped. -/
inductive Stop
  | assertion
  | outOfFuel
  deriving DecidableEq

def bufPeek (buf : List Byte) (stringLen : Nat) : Except Stop { string : List Byte // string.length = stringLen } :=
  if inside : stringLen ≤ buf.length then .ok ⟨buf.take stringLen, List.length_take_of_le inside⟩ else .error .assertion

def bufDrain (buf : List Byte) (n : Nat) : Except Stop (List Byte) :=
  if n ≤ buf.length then .ok (buf.drop n) else .error .assertion

def getUint8 (p : List Byte) (off : Nat) : Byte := p.getD off 0

/-- `ntohs(get_uint16(...))` -/
def getUint16 (p : List Byte) (off : Nat) : BitVec 16 := getUint8 p off ++ getUint8 p (off + 1)

/-- `ntohl(get_uint32(...))` -/
def getUint32 (p : List Byte) (off : Nat) : BitVec 32 :=
  getUint8 p off ++ getUint8 p (off + 1) ++ getUint8 p (off + 2) ++ getUint8 p (off + 3)

def getCircId (src : List Byte) (wideCircIds : Bool) : BitVec 32 :=
  if wideCircIds then getUint32 src 0 else (getUint16 src 0).setWidth 32

/-- What `fetch_var_cell_from_buf` finds: not a variable-length cell, or the start of one, or one. -/
inductive Fetched
  | notVar
  | notYet
  | found (cell : VarCell) (buf : List Byte)

/-- How `fetch_var_cell_from_buf` takes a cell off that is all there. -/
def pullVarCell (buf : List Byte) (headerLen : Nat) (command : Byte) (circId : BitVec 32) (length : BitVec 16) :
    Except Stop Fetched := do
  let buf ← bufDrain buf headerLen
  let payload ← bufPeek buf length.toNat
  let buf ← bufDrain buf length.toNat
  return .found ⟨command, circId, length, payload.1, payload.2⟩ buf

def fetchVarCellFromBuf (buf : List Byte) (linkproto : Int) : Except Stop Fetched := do
  let wideCircIds := isWide linkproto
  let circIdLen := getCircIdSize wideCircIds
  let headerLen := getVarCellHeaderSize wideCircIds
  if buf.length < headerLen then return .notVar
  let hdr ← bufPeek buf headerLen
  let command := getUint8 hdr.1 circIdLen
  if ¬ cellCommandIsVarLength command linkproto then return .notVar
  let length := getUint16 hdr.1 (circIdLen + 1)
  if buf.length < headerLen + length.toNat then return .notYet
  pullVarCell buf headerLen command (getCircId hdr.1 wideCircIds) length

def cellUnpack (src : List Byte) (wideCircIds : Bool) : Cell :=
  let off := getCircIdSize wideCircIds
  ⟨getCircId src wideCircIds, getUint8 src off, fun i => getUint8 src (off + 1 + i.val)⟩

/-- One round of the loop of `connection_or_process_cells_from_inbuf`: it takes a cell off the buffer, or there is no
whole one. -/
def cellFromInbuf (conn : OrConn) : Except Stop (Option (AnyCell × List Byte)) := do
  match ← fetchVarCellFromBuf conn.inbuf conn.linkProto with
  | .found varCell buf => return some (.var varCell, buf)
  | .notYet => return none
  | .notVar =>
      let cellNetworkSize := getCellNetworkSize conn.wideCircIds
      if conn.inbuf.length < cellNetworkSize then return none
      let buf ← bufPeek conn.inbuf cellNetworkSize
      return some (.fixed (cellUnpack buf.1 conn.wideCircIds), ← bufDrain conn.inbuf cellNetworkSize)

/-- `connection_or_process_cells_from_inbuf`, for so many rounds. -/
def processCells : Nat → OrConn → Except Stop OrConn
  | 0, _ => .error .outOfFuel
  | fuel + 1, conn => do
      match ← cellFromInbuf conn with
      | none => return conn
      | some (cell, buf) => processCells fuel { conn with inbuf := buf, handled := conn.handled ++ [cell] }

/-- `connection_or_process_cells_from_inbuf`; each round drains the buffer, so that there are enough of them. -/
def connectionOrProcessCellsFromInbuf (conn : OrConn) : Except Stop OrConn := processCells (conn.inbuf.length + 1) conn

def processReads : OrConn → List (List Byte) → Except Stop OrConn
  | conn, [] => return conn
  | conn, chunk :: chunks => do
      processReads (← connectionOrProcessCellsFromInbuf { conn with inbuf := conn.inbuf ++ chunk }) chunks

end TorJet.Cells

/-!
## Cells under any segmentation

The reader of cells is a framing, so that the cells that are handed on are the cells that were written, however their
bytes are cut into reads.
-/

namespace TorJet.Cells
open Base
open Relay (Byte Payload CELL_PAYLOAD_SIZE bytesFrom uint16Bytes uint32Bytes)

section Bytes
variable {p front back buf : List Byte} {i n : Nat} {wide : Bool} {circId : BitVec 32} {command : Byte}

/-! ## Bytes -/

theorem getUint8_append_right : getUint8 (front ++ back) (front.length + i) = getUint8 back i := by
  rw [getUint8, List.getD_append_right _ _ _ _ (Nat.le_add_right _ _), Nat.add_sub_cancel_left]
  rfl

theorem getUint8_of_prefix (front : p <+: buf) (inside : i < p.length) : getUint8 p i = getUint8 buf i := by
  obtain ⟨back, rfl⟩ := front
  exact (List.getD_append _ _ _ _ inside).symm

theorem length_circIdBytes : (circIdBytes circId wide).length = getCircIdSize wide := by
  cases wide <;> rfl

def IdFits (circId : BitVec 32) (wide : Bool) : Prop := wide = false → circId.toNat < 2 ^ 16

theorem getCircId_circIdBytes (fits : IdFits circId wide) : getCircId
    (circIdBytes circId wide ++ back) wide = circId := by
  cases wide with
  | true => exact Relay.uint32Bytes_append circId
  | false =>
      have narrow : getUint16 (circIdBytes circId false ++ back) 0 = circId.setWidth 16 := Relay.uint16Bytes_append _
      rw [getCircId, if_neg Bool.false_ne_true, narrow]
      apply BitVec.eq_of_toNat_eq
      have small := fits rfl
      rw [BitVec.toNat_setWidth, BitVec.toNat_setWidth, Nat.mod_eq_of_lt small, Nat.mod_eq_of_lt (by omega)]

theorem getCircId_of_prefix (front : p <+: buf) (inside : getCircIdSize wide ≤ p.length) :
    getCircId p wide = getCircId buf wide := by
  have same (i : Nat) (low : i < getCircIdSize wide) : getUint8 p i = getUint8 buf i :=
    getUint8_of_prefix front (by omega)
  cases wide with
  | true =>
      simp only [getCircId, if_true, getUint32]
      rw [same 0 (by decide), same (0 + 1) (by decide), same (0 + 2) (by decide), same (0 + 3) (by decide)]
  | false =>
      simp only [getCircId, Bool.false_eq_true, if_false, getUint16]
      rw [same 0 (by decide), same (0 + 1) (by decide)]

theorem getUint16_of_prefix (front : p <+: buf) (inside : i + 1 < p.length) : getUint16 p i = getUint16 buf i := by
  rw [getUint16, getUint16, getUint8_of_prefix front (by omega), getUint8_of_prefix front inside]

end Bytes

/-! ## One cell -/

section First
variable {buf front rest : List Byte} {linkProto : Int} {wide : Bool}

theorem headerSize_eq (wide : Bool) : getVarCellHeaderSize wide = getCircIdSize wide + 3 := by
  cases wide <;> rfl

theorem networkSize_eq (wide : Bool) : getCellNetworkSize wide = getCircIdSize wide + 1 + CELL_PAYLOAD_SIZE := by
  cases wide <;> rfl

def commandAt (buf : List Byte) (linkProto : Int) : Byte := getUint8 buf (getCircIdSize (isWide linkProto))

def lengthAt (buf : List Byte) (linkProto : Int) : BitVec 16 := getUint16 buf (getCircIdSize (isWide linkProto) + 1)

def varCellAt (buf : List Byte) (linkProto : Int)
    (whole : getVarCellHeaderSize (isWide linkProto) + (lengthAt buf linkProto).toNat ≤ buf.length) : VarCell where
  command := commandAt buf linkProto
  circId := getCircId buf (isWide linkProto)
  payloadLen := lengthAt buf linkProto
  payload := (buf.drop (getVarCellHeaderSize (isWide linkProto))).take (lengthAt buf linkProto).toNat
  size := by
    rw [List.length_take, List.length_drop]
    omega

theorem bufPeek_ok {n : Nat} (inside : n ≤ buf.length) :
    bufPeek buf n = .ok ⟨buf.take n, List.length_take_of_le inside⟩ := dif_pos inside

theorem bufDrain_ok {n : Nat} (inside : n ≤ buf.length) : bufDrain buf n = .ok (buf.drop n) := if_pos inside

theorem fetch_short (short : buf.length < getVarCellHeaderSize (isWide linkProto)) :
    fetchVarCellFromBuf buf linkProto = .ok .notVar := if_pos short

theorem fetch_eq (long : getVarCellHeaderSize (isWide linkProto) ≤ buf.length) :
    fetchVarCellFromBuf buf linkProto =
      if ¬ cellCommandIsVarLength (commandAt buf linkProto) linkProto then .ok .notVar
      else if whole : getVarCellHeaderSize (isWide linkProto) + (lengthAt buf linkProto).toNat ≤ buf.length then
        .ok (.found (varCellAt buf linkProto whole)
          (buf.drop (getVarCellHeaderSize (isWide linkProto) + (lengthAt buf linkProto).toNat)))
      else .ok .notYet := by
  have size := headerSize_eq (isWide linkProto)
  have front : buf.take (getVarCellHeaderSize (isWide linkProto)) <+: buf := List.take_prefix _ _
  have taken : (buf.take (getVarCellHeaderSize (isWide linkProto))).length = getVarCellHeaderSize (isWide linkProto) :=
    List.length_take_of_le long
  have command : getUint8 (buf.take (getVarCellHeaderSize (isWide linkProto))) (getCircIdSize (isWide linkProto)) =
      commandAt buf linkProto := getUint8_of_prefix front (by omega)
  have length : getUint16 (buf.take (getVarCellHeaderSize (isWide linkProto))) (getCircIdSize (isWide linkProto) + 1) =
      lengthAt buf linkProto := getUint16_of_prefix front (by omega)
  have circId : getCircId (buf.take (getVarCellHeaderSize (isWide linkProto))) (isWide linkProto) =
      getCircId buf (isWide linkProto) := getCircId_of_prefix front (by omega)
  unfold fetchVarCellFromBuf
  dsimp only
  rw [if_neg (Nat.not_lt.mpr long), bufPeek_ok long]
  dsimp only [Bind.bind, Except.bind, Pure.pure, Except.pure]
  rw [command, length, circId]
  split
  · rfl
  · split
    · rename_i cut
      rw [dif_neg (Nat.not_le.mpr cut)]
    · rename_i notCut
      have whole := Nat.not_lt.mp notCut
      have inside : (lengthAt buf linkProto).toNat ≤ (buf.drop (getVarCellHeaderSize (isWide linkProto))).length := by
        rw [List.length_drop]
        omega
      rw [dif_pos whole, pullVarCell, bufDrain_ok long]
      dsimp only [Bind.bind, Except.bind, Pure.pure, Except.pure]
      rw [bufPeek_ok inside, bufDrain_ok inside]
      dsimp only
      rw [List.drop_drop]
      rfl

/-! ## One round -/

def firstCell (linkProto : Int) (buf : List Byte) : Option (AnyCell × List Byte) :=
  if getVarCellHeaderSize (isWide linkProto) ≤ buf.length ∧
    cellCommandIsVarLength (commandAt buf linkProto) linkProto then
    if whole : getVarCellHeaderSize (isWide linkProto) + (lengthAt buf linkProto).toNat ≤ buf.length then
      some (.var (varCellAt buf linkProto whole),
        buf.drop (getVarCellHeaderSize (isWide linkProto) + (lengthAt buf linkProto).toNat))
    else none
  else if getCellNetworkSize (isWide linkProto) ≤ buf.length then
    some (.fixed (cellUnpack (buf.take (getCellNetworkSize (isWide linkProto))) (isWide linkProto)),
      buf.drop (getCellNetworkSize (isWide linkProto)))
  else none

def OrConn.Agrees (conn : OrConn) : Prop := conn.wideCircIds = isWide conn.linkProto

theorem cellFromInbuf_notVar {conn : OrConn} (agrees : conn.Agrees)
    (fetched : fetchVarCellFromBuf conn.inbuf conn.linkProto = .ok .notVar) :
    cellFromInbuf conn = .ok (if getCellNetworkSize (isWide conn.linkProto) ≤ conn.inbuf.length then
      some (.fixed (cellUnpack (conn.inbuf.take (getCellNetworkSize (isWide conn.linkProto))) (isWide conn.linkProto)),
        conn.inbuf.drop (getCellNetworkSize (isWide conn.linkProto)))
    else none) := by
  unfold cellFromInbuf
  rw [fetched]
  dsimp only [Bind.bind, Except.bind, Pure.pure, Except.pure]
  rw [agrees]
  by_cases whole : getCellNetworkSize (isWide conn.linkProto) ≤ conn.inbuf.length
  · rw [if_neg (Nat.not_lt.mpr whole), if_pos whole, bufPeek_ok whole, bufDrain_ok whole]
  · rw [if_pos (Nat.not_le.mp whole), if_neg whole]

theorem cellFromInbuf_eq {conn : OrConn} (agrees : conn.Agrees) :
    cellFromInbuf conn = .ok (firstCell conn.linkProto conn.inbuf) := by
  rw [firstCell]
  by_cases long : getVarCellHeaderSize (isWide conn.linkProto) ≤ conn.inbuf.length
  · have fetched := fetch_eq long
    by_cases isVar : cellCommandIsVarLength (commandAt conn.inbuf conn.linkProto) conn.linkProto = true
    · rw [if_neg (not_not.mpr isVar)] at fetched
      rw [if_pos ⟨long, isVar⟩, cellFromInbuf, fetched]
      split <;> rfl
    · rw [if_pos isVar] at fetched
      rw [if_neg (fun both => isVar both.2), cellFromInbuf_notVar agrees fetched]
  · rw [if_neg (fun both => long both.1), cellFromInbuf_notVar agrees (fetch_short (Nat.not_le.mp long))]

theorem firstCell_shorter (cell : AnyCell) (found : firstCell linkProto buf = some (cell, rest)) :
    rest.length < buf.length := by
  have header := headerSize_eq (isWide linkProto)
  have network := networkSize_eq (isWide linkProto)
  rw [firstCell] at found
  split at found
  · split at found
    · obtain ⟨-, rfl⟩ := Prod.mk.inj (Option.some.inj found)
      rw [List.length_drop]
      omega
    · cases found
  · split at found
    · obtain ⟨-, rfl⟩ := Prod.mk.inj (Option.some.inj found)
      rw [List.length_drop]
      omega
    · cases found

/-! ## What was written -/

def wire (linkProto : Int) : AnyCell → List Byte
  | .fixed cell => (cellPack cell (isWide linkProto)).take (getCellNetworkSize (isWide linkProto))
  | .var cell => varCellPackHeader cell (isWide linkProto) ++ cell.payload

theorem writeAnyCell_eq {conn : OrConn} (agrees : conn.Agrees) (cell : AnyCell) :
    writeAnyCell conn cell = { conn with outbuf := conn.outbuf ++ wire conn.linkProto cell } := by
  cases cell with
  | fixed cell => rw [writeAnyCell, connectionOrWriteCellToBuf, wire, agrees]
  | var cell => rw [writeAnyCell, connectionOrWriteVarCellToBuf, wire, agrees, List.append_assoc]

def Writable (linkProto : Int) : AnyCell → Prop
  | .fixed cell => cellCommandIsVarLength cell.command linkProto = false ∧ IdFits cell.circId (isWide linkProto)
  | .var cell => cellCommandIsVarLength cell.command linkProto = true ∧ IdFits cell.circId (isWide linkProto)

theorem wire_fixed (linkProto : Int) (cell : Cell) : wire linkProto (.fixed cell) =
    circIdBytes cell.circId (isWide linkProto) ++ cell.command :: bytesFrom cell.payload 0 := by
  have size : (circIdBytes cell.circId (isWide linkProto) ++ cell.command :: bytesFrom cell.payload 0).length =
      getCellNetworkSize (isWide linkProto) := by
    rw [List.length_append, length_circIdBytes, List.length_cons, Relay.length_bytesFrom, networkSize_eq]
    omega
  rw [wire, cellPack, ← size, List.take_left]

theorem wire_var (linkProto : Int) (cell : VarCell) : wire linkProto (.var cell) =
    circIdBytes cell.circId (isWide linkProto) ++ cell.command :: (uint16Bytes cell.payloadLen ++ cell.payload) := by
  rw [wire, varCellPackHeader, List.append_assoc]
  rfl

def AnyCell.command : AnyCell → Byte
  | .fixed cell => cell.command
  | .var cell => cell.command

def AnyCell.circId : AnyCell → BitVec 32
  | .fixed cell => cell.circId
  | .var cell => cell.circId

theorem wire_header (linkProto : Int) (cell : AnyCell) : ∃ behind, wire linkProto cell =
    circIdBytes cell.circId (isWide linkProto) ++ cell.command :: behind := by
  cases cell with
  | fixed cell => exact ⟨_, wire_fixed linkProto cell⟩
  | var cell => exact ⟨_, wire_var linkProto cell⟩

theorem commandAt_wire (linkProto : Int) (cell : AnyCell) (rest : List Byte) :
    commandAt (wire linkProto cell ++ rest) linkProto = cell.command := by
  obtain ⟨behind, eq⟩ := wire_header linkProto cell
  rw [commandAt, eq, List.append_assoc, ← length_circIdBytes, ← Nat.add_zero (circIdBytes _ _).length,
    getUint8_append_right]
  rfl

theorem getCircId_wire (cell : AnyCell) (fits : IdFits cell.circId (isWide linkProto)) (rest : List Byte) :
    getCircId (wire linkProto cell ++ rest) (isWide linkProto) = cell.circId := by
  obtain ⟨behind, eq⟩ := wire_header linkProto cell
  rw [eq, List.append_assoc, getCircId_circIdBytes fits]

theorem lengthAt_wire (linkProto : Int) (cell : VarCell) (rest : List Byte) :
    lengthAt (wire linkProto (.var cell) ++ rest) linkProto = cell.payloadLen := by
  rw [lengthAt, wire_var, List.append_assoc, ← length_circIdBytes, getUint16, Nat.add_assoc, getUint8_append_right,
    getUint8_append_right]
  exact Relay.uint16Bytes_append cell.payloadLen

theorem length_wire_fixed (linkProto : Int) (cell : Cell) : (wire linkProto (.fixed cell)).length = getCellNetworkSize
    (isWide linkProto) := by
  rw [wire_fixed, List.length_append, length_circIdBytes, List.length_cons, Relay.length_bytesFrom, networkSize_eq]
  omega

theorem length_wire_var (linkProto : Int) (cell : VarCell) :
    (wire linkProto (.var cell)).length = getVarCellHeaderSize (isWide linkProto) + cell.payloadLen.toNat := by
  rw [wire_var, List.length_append, length_circIdBytes, List.length_cons, List.length_append, cell.size, headerSize_eq]
  have two : (uint16Bytes cell.payloadLen).length = 2 := rfl
  omega

theorem varCellAt_wire (cell : VarCell) (fits : IdFits cell.circId (isWide linkProto)) (rest : List Byte)
    (whole : getVarCellHeaderSize (isWide linkProto) + (lengthAt (wire linkProto (.var cell) ++ rest) linkProto).toNat ≤
      (wire linkProto (.var cell) ++ rest).length) :
    varCellAt (wire linkProto (.var cell) ++ rest) linkProto whole = cell := by
  have header : (varCellPackHeader cell (isWide linkProto)).length = getVarCellHeaderSize (isWide linkProto) := by
    rw [varCellPackHeader, List.length_append, length_circIdBytes, headerSize_eq]
    rfl
  refine VarCell.ext (commandAt_wire linkProto (.var cell) rest) (getCircId_wire (.var cell) fits rest)
    (lengthAt_wire linkProto cell rest) ?_
  show ((wire linkProto (.var cell) ++ rest).drop _).take (lengthAt (wire linkProto (.var cell) ++ rest) linkProto).toNat = _
  rw [lengthAt_wire, ← header, ← cell.size, wire, List.append_assoc, List.drop_left, List.take_left]

theorem cellUnpack_wire (cell : Cell) (fits : IdFits cell.circId (isWide linkProto)) :
    cellUnpack (wire linkProto (.fixed cell)) (isWide linkProto) = cell := by
  have circId := getCircId_wire (.fixed cell) fits []
  have command := commandAt_wire linkProto (.fixed cell) []
  rw [List.append_nil] at circId command
  have payload (i : Fin CELL_PAYLOAD_SIZE) :
      getUint8 (wire linkProto (.fixed cell)) (getCircIdSize (isWide linkProto) + 1 + i.val) = cell.payload i := by
    rw [wire_fixed, ← length_circIdBytes, Nat.add_assoc, getUint8_append_right, Nat.add_comm 1, getUint8,
      List.getD_cons_succ, List.getD_eq_getElem _ _ (by rw [Relay.length_bytesFrom]; exact i.2)]
    simp [bytesFrom, Relay.getUint8]
  rw [cellUnpack]
  rw [circId, funext payload]
  exact congrArg (fun c => (⟨cell.circId, c, cell.payload⟩ : Cell)) command

theorem firstCell_wire {cell : AnyCell} (writable : Writable linkProto cell) (rest : List Byte) :
    firstCell linkProto (wire linkProto cell ++ rest) = some (cell, rest) := by
  have command := commandAt_wire linkProto cell rest
  cases cell with
  | fixed cell =>
      have size := length_wire_fixed linkProto cell
      rw [firstCell, command, AnyCell.command, writable.1, if_neg (fun both => Bool.false_ne_true both.2),
        List.length_append, if_pos (by omega), ← size, List.take_left, List.drop_left, cellUnpack_wire cell writable.2]
  | var cell =>
      have size := length_wire_var linkProto cell
      have length := lengthAt_wire linkProto cell rest
      have whole : getVarCellHeaderSize (isWide linkProto) +
          (lengthAt (wire linkProto (.var cell) ++ rest) linkProto).toNat ≤
            (wire linkProto (.var cell) ++ rest).length := by
        rw [length, List.length_append]
        omega
      rw [firstCell, command, AnyCell.command, writable.1, if_pos ⟨by omega, rfl⟩, dif_pos whole,
        varCellAt_wire cell writable.2, length, ← size, List.drop_left]

theorem firstCell_partly {cell : AnyCell} (writable : Writable linkProto cell) (part : front <+: wire linkProto cell)
    (notWhole : front ≠ wire linkProto cell) : firstCell linkProto front = none := by
  have shorter : front.length < (wire linkProto cell).length :=
    Nat.lt_of_le_of_ne part.length_le fun same => notWhole (part.eq_of_length same)
  have header := headerSize_eq (isWide linkProto)
  have network := networkSize_eq (isWide linkProto)
  have command (long : getVarCellHeaderSize (isWide linkProto) ≤ front.length) :
      commandAt front linkProto = cell.command := by
    have whole := commandAt_wire linkProto cell []
    rw [List.append_nil] at whole
    rw [← whole]
    exact getUint8_of_prefix part (by omega)
  rw [firstCell]
  cases cell with
  | fixed cell =>
      rw [length_wire_fixed] at shorter
      rw [if_neg, if_neg (by omega)]
      rintro ⟨long, isVar⟩
      rw [command long] at isVar
      exact absurd isVar (by rw [AnyCell.command, writable.1]; exact Bool.false_ne_true)
  | var cell =>
      rw [length_wire_var] at shorter
      by_cases long : getVarCellHeaderSize (isWide linkProto) ≤ front.length
      · have length : lengthAt front linkProto = cell.payloadLen := by
          have whole := lengthAt_wire linkProto cell []
          rw [List.append_nil] at whole
          rw [← whole]
          exact getUint16_of_prefix part (by omega)
        rw [if_pos ⟨long, by rw [command long]; exact writable.1⟩, dif_neg (by rw [length]; omega)]
      · rw [if_neg (fun both => long both.1), if_neg]
        have small : getVarCellHeaderSize (isWide linkProto) ≤ getCellNetworkSize (isWide linkProto) := by
          rw [header, network, CELL_PAYLOAD_SIZE]
          omega
        omega

def cellFraming (linkProto : Int) : Framing AnyCell Byte where
  write := wire linkProto
  first := firstCell linkProto
  Fits := Writable linkProto
  whole _ rest writable := firstCell_wire writable rest
  partly _ _ writable part notWhole := firstCell_partly writable part notWhole
  shorter _ _ _ found := firstCell_shorter _ found

end First

/-! ## Runs -/

section Runs
variable {conn reader writer : OrConn} {cells taken rest : List AnyCell} {left bytes : List Byte} {fuel : Nat}

theorem processCells_eq (agrees : conn.Agrees)
    (drained : (cellFraming conn.linkProto).drain fuel conn.inbuf = some (cells, left)) :
    processCells fuel conn = .ok { conn with inbuf := left, handled := conn.handled ++ cells } := by
  induction fuel generalizing conn cells with
  | zero => cases drained
  | succ fuel ih =>
      rw [processCells, cellFromInbuf_eq agrees]
      rw [Framing.drain] at drained
      cases found : firstCell conn.linkProto conn.inbuf with
      | none =>
          rw [show (cellFraming conn.linkProto).first conn.inbuf = none from found] at drained
          obtain ⟨rfl, rfl⟩ := Prod.mk.inj (Option.some.inj drained)
          rw [List.append_nil]
          rfl
      | some next =>
          obtain ⟨cell, buf⟩ := next
          rw [show (cellFraming conn.linkProto).first conn.inbuf = some (cell, buf) from found] at drained
          obtain ⟨⟨more, left'⟩, behind, eq⟩ := Option.map_eq_some_iff.mp drained
          obtain ⟨rfl, rfl⟩ := Prod.mk.inj eq
          have rest := @ih { conn with inbuf := buf, handled := conn.handled ++ [cell] } more agrees behind
          rw [List.append_assoc] at rest
          exact rest

theorem connectionOrProcessCellsFromInbuf_returns (agrees : conn.Agrees) :
    ∃ after, connectionOrProcessCellsFromInbuf conn = .ok after := by
  obtain ⟨⟨cells, left⟩, drained⟩ :=
    Option.isSome_iff_exists.mp ((cellFraming conn.linkProto).drain_isSome (Nat.lt_succ_self conn.inbuf.length))
  exact ⟨_, processCells_eq agrees drained⟩

theorem writeAll_outbuf (agrees : writer.Agrees) (cells : List AnyCell) :
    (cells.foldl writeAnyCell writer).outbuf = writer.outbuf ++ (cellFraming writer.linkProto).writeAll cells := by
  induction cells generalizing writer with
  | nil => exact (List.append_nil _).symm
  | cons cell cells ih =>
      have behind := @ih { writer with outbuf := writer.outbuf ++ wire writer.linkProto cell } agrees
      rw [List.foldl_cons, writeAnyCell_eq agrees cell, behind, Framing.writeAll_cons, ← List.append_assoc]
      rfl

theorem processReads_splits (agrees : conn.Agrees) (writable : ∀ c ∈ cells, Writable conn.linkProto c)
    (splits : (cellFraming conn.linkProto).Splits bytes cells taken rest conn.inbuf) (reads : List (List Byte))
    (front : bytes ++ reads.flatten <+: (cellFraming conn.linkProto).writeAll cells) :
    ∃ after next rest', processReads conn reads = .ok after ∧ after.handled = conn.handled ++ next ∧
      (cellFraming conn.linkProto).Splits (bytes ++ reads.flatten) cells (taken ++ next) rest' after.inbuf := by
  induction reads generalizing conn bytes taken rest with
  | nil => exact ⟨conn, [], rest, rfl, (List.append_nil _).symm, by simpa using splits⟩
  | cons chunk reads ih =>
      rw [List.flatten_cons, ← List.append_assoc] at front ⊢
      obtain ⟨next, rest', left, drained, splits'⟩ :=
        splits.read writable ((List.prefix_append _ _).trans front) (Nat.lt_succ_self (conn.inbuf ++ chunk).length)
      have processed : connectionOrProcessCellsFromInbuf { conn with inbuf := conn.inbuf ++ chunk } =
          .ok { conn with inbuf := left, handled := conn.handled ++ next } :=
        @processCells_eq { conn with inbuf := conn.inbuf ++ chunk } next left _ agrees drained
      obtain ⟨after, more, rest'', run, handled, splits''⟩ :=
        ih (show OrConn.Agrees { conn with inbuf := left, handled :=
          conn.handled ++ next } from agrees) writable splits' front
      refine ⟨after, next ++ more, rest'', ?_, by rw [handled, List.append_assoc],
        by rw [← List.append_assoc]; exact splits''⟩
      rw [processReads, processed]
      exact run

/-- However the bytes of the cells are cut into reads: after each read the cells that were handed on are the first ones
that were written, what is left is a proper part of the next one, and after the last read all the cells are handed
on. -/
theorem cells_framed (writerAgrees : writer.Agrees) (readerAgrees : reader.Agrees)
    (proto : reader.linkProto = writer.linkProto) (nothingWritten : writer.outbuf = []) (nothingRead : reader.inbuf = [])
    (writable : ∀ c ∈ cells, Writable writer.linkProto c) (reads : List (List Byte))
    (cut : reads.flatten = (cells.foldl writeAnyCell writer).outbuf) (sofar : List (List Byte)) (front :
      sofar <+: reads) :
    ∃ after handed rest, processReads reader sofar = .ok after ∧ after.handled = reader.handled ++ handed ∧
      cells = handed ++ rest ∧ (cellFraming writer.linkProto).IsPartOf after.inbuf rest ∧
      (sofar = reads → handed = cells ∧ after.inbuf = []) := by
  rw [← proto] at writable ⊢
  rw [writeAll_outbuf writerAgrees, nothingWritten, List.nil_append, ← proto] at cut
  have start : (cellFraming reader.linkProto).Splits [] cells [] cells reader.inbuf := by
    rw [nothingRead]
    exact Framing.splits_nil writable
  have inside : [] ++ sofar.flatten <+: (cellFraming reader.linkProto).writeAll cells := by
    obtain ⟨later, rfl⟩ := front
    rw [← cut, List.flatten_append]
    exact List.prefix_append _ _
  obtain ⟨after, next, rest, run, handled, splits⟩ := processReads_splits readerAgrees writable start sofar inside
  refine ⟨after, next, rest, run, handled, splits.1, splits.2.2, fun whole => ?_⟩
  rw [whole, List.nil_append, List.nil_append, cut] at splits
  exact splits.all writable

def versionsCell : VarCell := ⟨CELL_VERSIONS, 0, 2, [0, 3], rfl⟩

def authChallengeCell : VarCell := ⟨130, 0, 1, [9], rfl⟩

def narrowConn : OrConn := ⟨3, false, [], [], []⟩

theorem cells_framed_narrow : ∃ after,
    processReads narrowConn [[0], [0, 7, 0], [2, 0, 3, 0], [0, 130, 0], [1, 9]] = .ok after ∧
      after.handled = [.var versionsCell, .var authChallengeCell] ∧ after.inbuf = [] := by
  have writable : ∀ c ∈ [AnyCell.var versionsCell, .var authChallengeCell], Writable narrowConn.linkProto c := by
    simp only [List.forall_mem_cons, List.not_mem_nil, false_implies, implies_true, and_true, Writable]
    exact ⟨⟨rfl, fun _ => by decide⟩, rfl, fun _ => by decide⟩
  obtain ⟨after, handed, rest, run, handled, -, -, whole⟩ :=
    @cells_framed narrowConn narrowConn [.var versionsCell, .var authChallengeCell] rfl rfl rfl rfl rfl writable
      [[0], [0, 7, 0], [2, 0, 3, 0], [0, 130, 0], [1, 9]] (by decide) _ List.prefix_rfl
  obtain ⟨rfl, empty⟩ := whole rfl
  exact ⟨after, run, handled, empty⟩

end Runs
end TorJet.Cells
