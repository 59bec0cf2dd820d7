import TorJet.Base.Checked
import TorJet.Relay.Codec

/-!
# Handshake cells

CREATE cells and the answers to them, and the relay messages that carry them over a circuit: what is accepted, how it is
read from a payload and how it is written into one.
-/

namespace TorJet.Onion
open Base
open Relay (Byte CELL_PAYLOAD_SIZE RELAY_HEADER_SIZE_V0 uint16Bytes)

def CELL_CREATE : Byte := 1
def CELL_CREATED : Byte := 2
def CELL_CREATE_FAST : Byte := 5
def CELL_CREATED_FAST : Byte := 6
def CELL_CREATE2 : Byte := 10
def CELL_CREATED2 : Byte := 11

def ONION_HANDSHAKE_TYPE_TAP : BitVec 16 := 0
def ONION_HANDSHAKE_TYPE_FAST : BitVec 16 := 1
def ONION_HANDSHAKE_TYPE_NTOR : BitVec 16 := 2
def ONION_HANDSHAKE_TYPE_NTOR_V3 : BitVec 16 := 3

def DIGEST_LEN : Nat := 20
def CREATE_FAST_LEN : Nat := DIGEST_LEN
def CREATED_FAST_LEN : Nat := DIGEST_LEN * 2
def NTOR_ONIONSKIN_LEN : Nat := 84
def RELAY_PAYLOAD_SIZE_MAX : Nat := CELL_PAYLOAD_SIZE - RELAY_HEADER_SIZE_V0
def MAX_CREATE_LEN : Nat := CELL_PAYLOAD_SIZE - 4
def MAX_CREATED_LEN : Nat := CELL_PAYLOAD_SIZE - 2

/-- `cell_t`, without its circuit. -/
structure Cell where
  command : Byte
  payload : Buffer Byte CELL_PAYLOAD_SIZE

structure CreateCell where
  cellType : Byte
  handshakeType : BitVec 16
  handshakeLen : BitVec 16
  onionskin : Buffer Byte MAX_CREATE_LEN

structure CreatedCell where
  cellType : Byte
  handshakeLen : BitVec 16
  reply : Buffer Byte MAX_CREATED_LEN

inductive Stop
  | refused
  | outside
  | assertion
  deriving DecidableEq

def torAssert (holds : Bool) : Except Stop Unit := if holds then .ok () else .error .assertion

def memcpy {n : Nat} (dst : Buffer Byte n) (off : Nat) (src : List Byte) (count : Nat) : Except Stop (Buffer Byte n) :=
  match dst.copy off src count with
  | some after => .ok after
  | none => .error .outside

/-! ## CREATE -/

/-- The part of `check_create_cell` about the handshake. -/
def checkHandshake (cell : CreateCell) (unknownOk : Bool) : Bool :=
  if cell.handshakeType = ONION_HANDSHAKE_TYPE_TAP then false
  else if cell.handshakeType = ONION_HANDSHAKE_TYPE_FAST then cell.handshakeLen.toNat = CREATE_FAST_LEN
  else if cell.handshakeType = ONION_HANDSHAKE_TYPE_NTOR then cell.handshakeLen.toNat = NTOR_ONIONSKIN_LEN
  else if cell.handshakeType = ONION_HANDSHAKE_TYPE_NTOR_V3 then true
  else unknownOk

def checkCreateCell (cell : CreateCell) (unknownOk : Bool) : Bool :=
  if cell.cellType = CELL_CREATE then false
  else if cell.cellType = CELL_CREATE_FAST then
    cell.handshakeType = ONION_HANDSHAKE_TYPE_FAST && checkHandshake cell unknownOk
  else if cell.cellType = CELL_CREATE2 then checkHandshake cell unknownOk
  else false

def createCellInit (cellType : Byte) (handshakeType handshakeLen : BitVec 16) (onionskin : List Byte) :
    Except Stop CreateCell :=
  (memcpy (.filled MAX_CREATE_LEN 0) 0 onionskin handshakeLen.toNat).map fun onionskin =>
    ⟨cellType, handshakeType, handshakeLen, onionskin⟩

def parseCreate2Payload : List Byte → Except Stop CreateCell
  | t₁ :: t₂ :: l₁ :: l₂ :: rest =>
      let handshakeType : BitVec 16 := t₁ ++ t₂
      let handshakeLen : BitVec 16 := l₁ ++ l₂
      if handshakeLen.toNat > MAX_CREATE_LEN ∨ handshakeLen.toNat > rest.length then .error .refused
      else if handshakeType = ONION_HANDSHAKE_TYPE_FAST then .error .refused
      else createCellInit CELL_CREATE2 handshakeType handshakeLen rest
  | _ => .error .refused

def checked {α : Type} (check : α → Bool) (x : α) : Except Stop α := if check x then .ok x else .error .refused

def createCellParse (cellIn : Cell) : Except Stop CreateCell :=
  if cellIn.command = CELL_CREATE then .error .refused
  else if cellIn.command = CELL_CREATE_FAST then
    createCellInit CELL_CREATE_FAST ONION_HANDSHAKE_TYPE_FAST (BitVec.ofNat 16 CREATE_FAST_LEN) cellIn.payload.cells >>=
      checked (checkCreateCell · false)
  else if cellIn.command = CELL_CREATE2 then
    parseCreate2Payload cellIn.payload.cells >>= checked (checkCreateCell · false)
  else .error .refused

def NTOR_CREATE_MAGIC : List Byte := "ntorNTORntorNTOR".toList.map fun c => BitVec.ofNat 8 c.toNat

def createCellFormatImpl (cellIn : CreateCell) (relayed : Bool) : Except Stop Cell :=
  if !checkCreateCell cellIn relayed then .error .refused
  else
    let payload : Buffer Byte CELL_PAYLOAD_SIZE := .filled CELL_PAYLOAD_SIZE 0
    if cellIn.cellType = CELL_CREATE then
      if cellIn.handshakeType = ONION_HANDSHAKE_TYPE_NTOR_V3 then .error .refused
      else do
        let magic := if cellIn.handshakeType = ONION_HANDSHAKE_TYPE_NTOR then NTOR_CREATE_MAGIC else []
        let payload ← memcpy payload 0 magic magic.length
        torAssert (cellIn.handshakeLen.toNat ≤ CELL_PAYLOAD_SIZE - magic.length)
        let payload ← memcpy payload magic.length cellIn.onionskin.cells cellIn.handshakeLen.toNat
        return ⟨cellIn.cellType, payload⟩
    else if cellIn.cellType = CELL_CREATE_FAST then do
      torAssert (cellIn.handshakeLen.toNat ≤ CELL_PAYLOAD_SIZE)
      let payload ← memcpy payload 0 cellIn.onionskin.cells cellIn.handshakeLen.toNat
      return ⟨cellIn.cellType, payload⟩
    else if cellIn.cellType = CELL_CREATE2 then do
      torAssert (cellIn.handshakeLen.toNat ≤ CELL_PAYLOAD_SIZE - 4)
      let payload ← memcpy payload 0 (uint16Bytes cellIn.handshakeType) 2
      let payload ← memcpy payload 2 (uint16Bytes cellIn.handshakeLen) 2
      let payload ← memcpy payload 4 cellIn.onionskin.cells cellIn.handshakeLen.toNat
      return ⟨cellIn.cellType, payload⟩
    else .error .refused

def createCellFormat (cellIn : CreateCell) : Except Stop Cell := createCellFormatImpl cellIn false

def createCellFormatRelayed (cellIn : CreateCell) : Except Stop Cell := createCellFormatImpl cellIn true

/-! ## CREATED -/

def checkCreatedCell (cell : CreatedCell) : Bool :=
  if cell.cellType = CELL_CREATED then false
  else if cell.cellType = CELL_CREATED_FAST then cell.handshakeLen.toNat = CREATED_FAST_LEN
  else if cell.cellType = CELL_CREATED2 then cell.handshakeLen.toNat ≤ RELAY_PAYLOAD_SIZE_MAX - 2
  else true

/-- A `created_cell_t` with a reply that is copied from elsewhere. -/
def createdCellInit (cellType : Byte) (handshakeLen : BitVec 16) (reply : List Byte) : Except Stop CreatedCell :=
  (memcpy (.filled MAX_CREATED_LEN 0) 0 reply handshakeLen.toNat).map fun reply => ⟨cellType, handshakeLen, reply⟩

/-- The CREATED2 case of `created_cell_parse`. -/
def parseCreated2Payload : List Byte → Except Stop CreatedCell
  | l₁ :: l₂ :: rest =>
      let handshakeLen : BitVec 16 := l₁ ++ l₂
      if handshakeLen.toNat > MAX_CREATED_LEN then .error .refused
      else createdCellInit CELL_CREATED2 handshakeLen rest
  | _ => .error .outside

def createdCellParse (cellIn : Cell) : Except Stop CreatedCell :=
  if cellIn.command = CELL_CREATED then .error .refused
  else if cellIn.command = CELL_CREATED_FAST then
    createdCellInit CELL_CREATED_FAST (BitVec.ofNat 16 CREATED_FAST_LEN) cellIn.payload.cells >>= checked checkCreatedCell
  else if cellIn.command = CELL_CREATED2 then parseCreated2Payload cellIn.payload.cells >>= checked checkCreatedCell
  else checked checkCreatedCell ⟨0, 0, .filled MAX_CREATED_LEN 0⟩

def createdCellFormat (cellIn : CreatedCell) : Except Stop Cell :=
  if !checkCreatedCell cellIn then .error .refused
  else
    let payload : Buffer Byte CELL_PAYLOAD_SIZE := .filled CELL_PAYLOAD_SIZE 0
    if cellIn.cellType = CELL_CREATED ∨ cellIn.cellType = CELL_CREATED_FAST then do
      torAssert (cellIn.handshakeLen.toNat ≤ CELL_PAYLOAD_SIZE)
      let payload ← memcpy payload 0 cellIn.reply.cells cellIn.handshakeLen.toNat
      return ⟨cellIn.cellType, payload⟩
    else if cellIn.cellType = CELL_CREATED2 then do
      torAssert (cellIn.handshakeLen.toNat ≤ CELL_PAYLOAD_SIZE - 2)
      let payload ← memcpy payload 0 (uint16Bytes cellIn.handshakeLen) 2
      let payload ← memcpy payload 2 cellIn.reply.cells cellIn.handshakeLen.toNat
      return ⟨cellIn.cellType, payload⟩
    else .error .refused

end TorJet.Onion
