import TorJet.Onion.Cells

/-!
# The body of EXTEND2

Link specifiers and the CREATE2 body behind them, as the generated encoder writes and the generated parser reads them.
-/

namespace TorJet.Onion
open Base
open Relay (Byte uint16Bytes uint32Bytes uint16Bytes_append uint32Bytes_append)

def LS_IPV4 : Byte := 0
def LS_IPV6 : Byte := 1
def LS_LEGACY_ID : Byte := 2
def LS_ED25519_ID : Byte := 3

/-- `link_specifier_t`, by its type. -/
inductive LinkSpecifier
  | ipv4 (addr : BitVec 32) (port : BitVec 16)
  | ipv6 (addr : Buffer Byte 16) (port : BitVec 16)
  | legacyId (id : Buffer Byte DIGEST_LEN)
  | ed25519Id (id : Buffer Byte 32)
  | unrecognized (lsType : Byte) (bytes : List Byte)

structure Create2CellBody where
  handshakeType : BitVec 16
  handshakeLen : BitVec 16
  handshakeData : List Byte

structure Extend2CellBody where
  nSpec : Byte
  ls : List LinkSpecifier
  create2 : Create2CellBody

/-! ## Writing -/

namespace LinkSpecifier

def lsType : LinkSpecifier → Byte
  | ipv4 _ _ => LS_IPV4
  | ipv6 _ _ => LS_IPV6
  | legacyId _ => LS_LEGACY_ID
  | ed25519Id _ => LS_ED25519_ID
  | unrecognized lsType _ => lsType

def un : LinkSpecifier → List Byte
  | ipv4 addr port => uint32Bytes addr ++ uint16Bytes port
  | ipv6 addr port => addr.cells ++ uint16Bytes port
  | legacyId id => id.cells
  | ed25519Id id => id.cells
  | unrecognized _ bytes => bytes

/-- `link_specifier_encode`, with the length that is written back. -/
def encode (ls : LinkSpecifier) : Option (List Byte) :=
  if ls.un.length > 255 then none else some (ls.lsType :: BitVec.ofNat 8 ls.un.length :: ls.un)

end LinkSpecifier

def Create2CellBody.encode (body : Create2CellBody) : List Byte :=
  uint16Bytes body.handshakeType ++ (uint16Bytes body.handshakeLen ++ body.handshakeData)

def encodeSpecifiers : List LinkSpecifier → Option (List Byte)
  | [] => some []
  | ls :: rest => do
      let bytes ← ls.encode
      let more ← encodeSpecifiers rest
      return bytes ++ more

def extend2CellBodyEncode (avail : Nat) (body : Extend2CellBody) : Option (List Byte) :=
  -- `extend2_cell_body_check`
  if body.ls.length ≠ body.nSpec.toNat ∨ body.create2.handshakeData.length ≠ body.create2.handshakeLen.toNat then none
  else do
    let specifiers ← encodeSpecifiers body.ls
    let bytes := body.nSpec :: (specifiers ++ body.create2.encode)
    if bytes.length > avail then none else some bytes

/-! ## Reading -/

def block (n : Nat) (bytes : List Byte) : Option (Buffer Byte n) :=
  if size : bytes.length = n then some ⟨bytes, size⟩ else none

def parsePort : List Byte → Option (BitVec 16)
  | [a, b] => some (a ++ b)
  | _ => none

def parseIpv4 : List Byte → Option LinkSpecifier
  | a :: b :: c :: d :: rest => (parsePort rest).map fun port => .ipv4 (a ++ b ++ c ++ d) port
  | _ => none

def parseUnion (lsType : Byte) (bytes : List Byte) : Option LinkSpecifier :=
  if lsType = LS_IPV4 then parseIpv4 bytes
  else if lsType = LS_IPV6 then do
    let addr ← block 16 (bytes.take 16)
    let port ← parsePort (bytes.drop 16)
    return .ipv6 addr port
  else if lsType = LS_LEGACY_ID then (block DIGEST_LEN bytes).map .legacyId
  else if lsType = LS_ED25519_ID then (block 32 bytes).map .ed25519Id
  else some (.unrecognized lsType bytes)

/-- `link_specifier_parse`: the link specifier, and what is behind it. -/
def linkSpecifierParse : List Byte → Option (LinkSpecifier × List Byte)
  | lsType :: lsLen :: rest =>
      if lsLen.toNat ≤ rest.length then
        (parseUnion lsType (rest.take lsLen.toNat)).map (·, rest.drop lsLen.toNat)
      else none
  | _ => none

def parseSpecifiers : Nat → List Byte → Option (List LinkSpecifier × List Byte)
  | 0, bytes => some ([], bytes)
  | n + 1, bytes => do
      let (ls, bytes) ← linkSpecifierParse bytes
      let (more, bytes) ← parseSpecifiers n bytes
      return (ls :: more, bytes)

def create2CellBodyParse : List Byte → Option (Create2CellBody × List Byte)
  | t₁ :: t₂ :: l₁ :: l₂ :: rest =>
      let handshakeLen : BitVec 16 := l₁ ++ l₂
      if handshakeLen.toNat ≤ rest.length then
        some (⟨t₁ ++ t₂, handshakeLen, rest.take handshakeLen.toNat⟩, rest.drop handshakeLen.toNat)
      else none
  | _ => none

/-- `extend2_cell_body_parse`: the body, and what is behind it. -/
def extend2CellBodyParse : List Byte → Option (Extend2CellBody × List Byte)
  | nSpec :: bytes => do
      let (ls, bytes) ← parseSpecifiers nSpec.toNat bytes
      let (create2, bytes) ← create2CellBodyParse bytes
      return (⟨nSpec, ls, create2⟩, bytes)
  | _ => none

/-! ## There and back -/

def LinkSpecifier.Proper : LinkSpecifier → Prop
  | .unrecognized lsType _ => lsType ≠ LS_IPV4 ∧ lsType ≠ LS_IPV6 ∧ lsType ≠ LS_LEGACY_ID ∧ lsType ≠ LS_ED25519_ID
  | _ => True

section RoundTrip
variable {ls : LinkSpecifier} {specs : List LinkSpecifier} {bytes rest : List Byte} {body : Extend2CellBody}
  {create2 : Create2CellBody} {n : Nat}

theorem block_cells (b : Buffer Byte n) : block n b.cells = some b := dif_pos b.size

theorem parsePort_uint16Bytes (v : BitVec 16) : parsePort (uint16Bytes v) = some v := congrArg some (uint16Bytes_append v)

theorem parseUnion_un (proper : ls.Proper) : parseUnion ls.lsType ls.un = some ls := by
  cases ls with
  | ipv4 addr port =>
      rw [LinkSpecifier.lsType, LinkSpecifier.un, parseUnion, if_pos rfl]
      change (parsePort (uint16Bytes port)).map _ = _
      rw [parsePort_uint16Bytes, Option.map_some, uint32Bytes_append]
  | ipv6 addr port =>
      have front : (addr.cells ++ uint16Bytes port).take 16 = addr.cells := List.take_left' addr.size
      have back : (addr.cells ++ uint16Bytes port).drop 16 = uint16Bytes port := List.drop_left' addr.size
      rw [LinkSpecifier.lsType, LinkSpecifier.un, parseUnion, if_neg (by decide), if_pos rfl, front, back, block_cells,
        parsePort_uint16Bytes]
      rfl
  | legacyId id =>
      rw [LinkSpecifier.lsType, LinkSpecifier.un, parseUnion, if_neg (by decide), if_neg (by decide), if_pos rfl,
        block_cells]
      rfl
  | ed25519Id id =>
      rw [LinkSpecifier.lsType, LinkSpecifier.un, parseUnion, if_neg (by decide), if_neg (by decide), if_neg (by decide),
        if_pos rfl, block_cells]
      rfl
  | unrecognized lsType bytes =>
      obtain ⟨not4, not6, notLegacy, notEd⟩ := proper
      rw [LinkSpecifier.lsType, LinkSpecifier.un, parseUnion, if_neg not4, if_neg not6, if_neg notLegacy, if_neg notEd]

theorem linkSpecifierParse_encode (proper : ls.Proper) (encoded : ls.encode = some bytes) :
    linkSpecifierParse (bytes ++ rest) = some (ls, rest) := by
  unfold LinkSpecifier.encode at encoded
  split at encoded
  · cases encoded
  rename_i short
  have length : (BitVec.ofNat 8 ls.un.length).toNat = ls.un.length := by
    rw [BitVec.toNat_ofNat, Nat.mod_eq_of_lt (by omega)]
  rw [← Option.some.inj encoded, List.cons_append, List.cons_append, linkSpecifierParse, length, if_pos (by simp),
    List.take_left, List.drop_left, parseUnion_un proper, Option.map_some]

theorem parseSpecifiers_encode (proper : ∀ ls ∈ specs, ls.Proper) (encoded : encodeSpecifiers specs = some bytes) :
    parseSpecifiers specs.length (bytes ++ rest) = some (specs, rest) := by
  induction specs generalizing bytes with
  | nil =>
      rw [← Option.some.inj encoded]
      rfl
  | cons ls specs ih =>
      obtain ⟨first, others⟩ := List.forall_mem_cons.mp proper
      obtain ⟨front, encodedFirst, encoded⟩ := Option.bind_eq_some_iff.mp encoded
      obtain ⟨more, encodedMore, encoded⟩ := Option.bind_eq_some_iff.mp encoded
      rw [← Option.some.inj encoded, List.append_assoc, List.length_cons, parseSpecifiers,
        linkSpecifierParse_encode first encodedFirst, Option.bind_eq_bind, Option.bind_some]
      dsimp only
      rw [ih others encodedMore]
      rfl

theorem create2CellBodyParse_encode (length : create2.handshakeData.length = create2.handshakeLen.toNat) :
    create2CellBodyParse (create2.encode ++ rest) = some (create2, rest) := by
  obtain ⟨handshakeType, handshakeLen, handshakeData⟩ := create2
  dsimp only at length
  have bytes : Create2CellBody.encode ⟨handshakeType, handshakeLen, handshakeData⟩ ++ rest =
      handshakeType.extractLsb' 8 8 :: handshakeType.extractLsb' 0 8 :: handshakeLen.extractLsb' 8 8 ::
        handshakeLen.extractLsb' 0 8 :: (handshakeData ++ rest) := rfl
  rw [bytes, create2CellBodyParse, uint16Bytes_append, uint16Bytes_append, ← length, if_pos (by simp), List.take_left,
    List.drop_left]

theorem extend2CellBodyParse_encode {avail : Nat} (proper : ∀ ls ∈ body.ls, ls.Proper)
    (encoded : extend2CellBodyEncode avail body = some bytes) :
    extend2CellBodyParse bytes = some (body, []) ∧ bytes.length ≤ avail := by
  unfold extend2CellBodyEncode at encoded
  split at encoded
  · cases encoded
  rename_i consistent
  rw [not_or, not_not, not_not] at consistent
  obtain ⟨specifiers, encodedSpecifiers, encoded⟩ := Option.bind_eq_some_iff.mp encoded
  dsimp only at encoded
  split at encoded
  · cases encoded
  rename_i short
  rw [← Option.some.inj encoded]
  refine ⟨?_, Nat.not_lt.mp short⟩
  rw [extend2CellBodyParse, ← consistent.1, parseSpecifiers_encode proper encodedSpecifiers, Option.bind_eq_bind,
    Option.bind_some]
  dsimp only
  have create2 := @create2CellBodyParse_encode [] body.create2 consistent.2
  rw [List.append_nil] at create2
  rw [create2]
  rfl

theorem parseSpecifiers_length (read : parseSpecifiers n bytes = some (specs, rest)) : rest.length ≤ bytes.length := by
  induction n generalizing bytes specs with
  | zero => exact Nat.le_of_eq (congrArg List.length (Prod.mk.inj (Option.some.inj read)).2.symm)
  | succ n ih =>
      obtain ⟨⟨ls, mid⟩, first, read⟩ := Option.bind_eq_some_iff.mp read
      obtain ⟨⟨more, last⟩, others, read⟩ := Option.bind_eq_some_iff.mp read
      obtain ⟨-, rfl⟩ := Prod.mk.inj (Option.some.inj read)
      refine Nat.le_trans (ih others) ?_
      unfold linkSpecifierParse at first
      split at first
      · split at first
        · obtain ⟨ls', -, same⟩ := Option.map_eq_some_iff.mp first
          rw [← (Prod.mk.inj same).2, List.length_drop, List.length_cons, List.length_cons]
          omega
        · cases first
      · cases first

theorem extend2CellBodyParse_data (read : extend2CellBodyParse bytes = some (body, rest)) :
    body.create2.handshakeData.length = body.create2.handshakeLen.toNat ∧
      body.create2.handshakeLen.toNat + 4 < bytes.length := by
  cases bytes with
  | nil => cases read
  | cons nSpec bytes =>
      obtain ⟨⟨ls, mid⟩, specifiers, read⟩ := Option.bind_eq_some_iff.mp read
      obtain ⟨⟨create2, last⟩, handshake, read⟩ := Option.bind_eq_some_iff.mp read
      obtain ⟨rfl, -⟩ := Prod.mk.inj (Option.some.inj read)
      have shorter := parseSpecifiers_length specifiers
      unfold create2CellBodyParse at handshake
      split at handshake
      · dsimp only at handshake
        split at handshake
        · rename_i inside
          obtain ⟨rfl, -⟩ := Prod.mk.inj (Option.some.inj handshake)
          dsimp only at shorter ⊢
          rw [List.length_cons, List.length_cons, List.length_cons, List.length_cons] at shorter
          rw [List.length_take, List.length_cons]
          omega
        · cases handshake
      · cases handshake

end RoundTrip
end TorJet.Onion

/-!
## EXTEND and EXTENDED

The relay messages that ask for another hop and answer that it is there, and what a relay passes on between them and the
cells of its links.
-/

namespace TorJet.Onion
open Base
open Relay (Byte uint16Bytes RELAY_COMMAND_EXTEND RELAY_COMMAND_EXTENDED RELAY_COMMAND_EXTEND2 RELAY_COMMAND_EXTENDED2)

/-- A `tor_addr_port_t` of one family; there is no address when the family is `AF_UNSPEC`. -/
structure AddrPort (α : Type) where
  addr : Option α
  port : BitVec 16

structure ExtendCell where
  cellType : Byte
  orportIpv4 : AddrPort (BitVec 32)
  orportIpv6 : AddrPort (Buffer Byte 16)
  nodeId : Buffer Byte DIGEST_LEN
  edPubkey : Buffer Byte 32
  createCell : CreateCell

structure ExtendedCell where
  cellType : Byte
  createdCell : CreatedCell

/-- A relay message as `extend_cell_format` and `extended_cell_format` give it out. -/
structure Message where
  command : Byte
  len : BitVec 16
  payload : Buffer Byte RELAY_PAYLOAD_SIZE_MAX

def Message.content (msg : Message) : List Byte := msg.payload.cells.take msg.len.toNat

/-! ## EXTEND -/

/-- `tor_addr_port_is_valid_ap` for an address to connect to. -/
def torAddrPortIsValidAp {α : Type} [DecidableEq α] (null : α) (ap : AddrPort α) : Bool :=
  ap.addr.any (· ≠ null) && ap.port ≠ 0

def validIpv4 (ap : AddrPort (BitVec 32)) : Bool := torAddrPortIsValidAp 0 ap

def validIpv6 (ap : AddrPort (Buffer Byte 16)) : Bool := torAddrPortIsValidAp (.filled 16 0) ap

def checkExtendCell (cell : ExtendCell) : Bool :=
  if cell.nodeId = .filled DIGEST_LEN 0 then false
  else if !validIpv4 cell.orportIpv4 && (cell.cellType ≠ RELAY_COMMAND_EXTEND2 || !validIpv6 cell.orportIpv6) then false
  else if cell.createCell.cellType = CELL_CREATE then false
  else if cell.createCell.cellType = CELL_CREATE2 && cell.cellType ≠ RELAY_COMMAND_EXTEND2 then false
  else if cell.createCell.cellType ≠ CELL_CREATE2 then false
  else if cell.createCell.handshakeType = ONION_HANDSHAKE_TYPE_FAST ∨
      cell.createCell.handshakeType = ONION_HANDSHAKE_TYPE_TAP then false
  else checkCreateCell cell.createCell true

def createCellFromCreate2CellBody (cell : Create2CellBody) : Except Stop CreateCell :=
  if cell.handshakeLen.toNat > MAX_CREATE_LEN then .error .refused
  else createCellInit CELL_CREATE2 cell.handshakeType cell.handshakeLen cell.handshakeData

structure Found where
  ipv4 : Option (BitVec 32 × BitVec 16)
  ipv6 : Option (Buffer Byte 16 × BitVec 16)
  rsaId : Option (Buffer Byte DIGEST_LEN)
  edId : Option (Buffer Byte 32)

/-- The loop of `extend_cell_from_extend2_cell_body`. -/
def findSpecifiers : List LinkSpecifier → Found → Option Found
  | [], found => some found
  | .ipv4 addr port :: rest, found =>
      if found.ipv4.isSome then findSpecifiers rest found
      else findSpecifiers rest { found with ipv4 := some (addr, port) }
  | .ipv6 addr port :: rest, found =>
      if found.ipv6.isSome then findSpecifiers rest found
      else findSpecifiers rest { found with ipv6 := some (addr, port) }
  | .legacyId id :: rest, found =>
      if found.rsaId.isSome then none else findSpecifiers rest { found with rsaId := some id }
  | .ed25519Id id :: rest, found =>
      if found.edId.isSome then none else findSpecifiers rest { found with edId := some id }
  | .unrecognized _ _ :: rest, found => findSpecifiers rest found

def foundAddr {α : Type} (found : Option (α × BitVec 16)) : AddrPort α := ⟨found.map (·.1), (found.map (·.2)).getD 0⟩

def extendCellFromExtend2CellBody (cell : Extend2CellBody) : Except Stop ExtendCell :=
  match findSpecifiers cell.ls ⟨none, none, none, none⟩ with
  | none => .error .refused
  | some found =>
      match found.rsaId with
      | none => .error .refused
      | some nodeId =>
          if found.ipv4.isNone && found.ipv6.isNone then .error .refused
          else
            (createCellFromCreate2CellBody cell.create2).map fun createCell =>
              { cellType := RELAY_COMMAND_EXTEND2
                orportIpv4 := foundAddr found.ipv4
                orportIpv6 := foundAddr found.ipv6
                nodeId := nodeId
                edPubkey := found.edId.getD (.filled 32 0)
                createCell := createCell }

def extendCellParse (command : Byte) (payload : List Byte) : Except Stop ExtendCell :=
  if payload.length > RELAY_PAYLOAD_SIZE_MAX then .error .refused
  else if command = RELAY_COMMAND_EXTEND then .error .refused
  else if command = RELAY_COMMAND_EXTEND2 then
    match extend2CellBodyParse payload with
    | none => .error .refused
    | some (cell, _) => extendCellFromExtend2CellBody cell >>= checked checkExtendCell
  else .error .refused

/-- The link specifiers that `extend_cell_format` writes. -/
def linkSpecifiers (includeEd25519 : Bool) (cellIn : ExtendCell) : List LinkSpecifier :=
  (if validIpv4 cellIn.orportIpv4 then [.ipv4 (cellIn.orportIpv4.addr.getD 0) cellIn.orportIpv4.port] else []) ++
    .legacyId cellIn.nodeId ::
      ((if includeEd25519 && cellIn.edPubkey ≠ .filled 32 0 then [.ed25519Id cellIn.edPubkey] else []) ++
        if validIpv6 cellIn.orportIpv6 then
          [.ipv6 (cellIn.orportIpv6.addr.getD (.filled 16 0)) cellIn.orportIpv6.port]
        else [])

/-- The body that `extend_cell_format` fills in. -/
def extend2CellBody (includeEd25519 : Bool) (cellIn : ExtendCell) : Extend2CellBody :=
  { nSpec := BitVec.ofNat 8 (linkSpecifiers includeEd25519 cellIn).length
    ls := linkSpecifiers includeEd25519 cellIn
    create2 :=
      { handshakeType := cellIn.createCell.handshakeType
        handshakeLen := cellIn.createCell.handshakeLen
        handshakeData := cellIn.createCell.onionskin.cells.take cellIn.createCell.handshakeLen.toNat } }

/-- `extend_cell_format`; the flag is `should_include_ed25519_id_extend_cells`. -/
def extendCellFormat (includeEd25519 : Bool) (cellIn : ExtendCell) : Except Stop Message :=
  if !checkExtendCell cellIn then .error .refused
  else if cellIn.cellType = RELAY_COMMAND_EXTEND then .error .refused
  else if cellIn.cellType = RELAY_COMMAND_EXTEND2 then
    -- the handshake is copied into an array of its length
    if cellIn.createCell.handshakeLen.toNat > cellIn.createCell.onionskin.cells.length then .error .outside
    else
      match extend2CellBodyEncode RELAY_PAYLOAD_SIZE_MAX (extend2CellBody includeEd25519 cellIn) with
      | none => .error .refused
      | some bytes => do
          let payload ← memcpy (.filled RELAY_PAYLOAD_SIZE_MAX 0) 0 bytes bytes.length
          return ⟨RELAY_COMMAND_EXTEND2, BitVec.ofNat 16 bytes.length, payload⟩
  else .error .refused

/-! ## EXTENDED -/

def checkExtendedCell (cell : ExtendedCell) : Bool :=
  if cell.createdCell.cellType = CELL_CREATED then
    cell.cellType = RELAY_COMMAND_EXTENDED && checkCreatedCell cell.createdCell
  else if cell.createdCell.cellType = CELL_CREATED2 then
    cell.cellType = RELAY_COMMAND_EXTENDED2 && checkCreatedCell cell.createdCell
  else false

/-- The EXTENDED2 case of `extended_cell_parse`. -/
def parseExtended2Payload : List Byte → Except Stop ExtendedCell
  | l₁ :: l₂ :: rest =>
      let handshakeLen : BitVec 16 := l₁ ++ l₂
      if handshakeLen.toNat > RELAY_PAYLOAD_SIZE_MAX - 2 ∨ handshakeLen.toNat > rest.length then .error .refused
      else (createdCellInit CELL_CREATED2 handshakeLen rest).map fun created => ⟨RELAY_COMMAND_EXTENDED2, created⟩
  | _ => .error .refused

def extendedCellParse (command : Byte) (payload : List Byte) : Except Stop ExtendedCell :=
  if payload.length > RELAY_PAYLOAD_SIZE_MAX then .error .refused
  else if command = RELAY_COMMAND_EXTENDED then .error .refused
  else if command = RELAY_COMMAND_EXTENDED2 then parseExtended2Payload payload >>= checked checkExtendedCell
  else .error .refused

def extendedCellFormat (cellIn : ExtendedCell) : Except Stop Message :=
  if !checkExtendedCell cellIn then .error .refused
  else if cellIn.cellType = RELAY_COMMAND_EXTENDED then .error .refused
  else if cellIn.cellType = RELAY_COMMAND_EXTENDED2 then do
    let created := cellIn.createdCell
    let payload ← memcpy (.filled RELAY_PAYLOAD_SIZE_MAX 0) 0 (uint16Bytes created.handshakeLen) 2
    if created.handshakeLen.toNat > RELAY_PAYLOAD_SIZE_MAX - 2 then throw .refused
    let payload ← memcpy payload 2 created.reply.cells created.handshakeLen.toNat
    return ⟨RELAY_COMMAND_EXTENDED2, 2 + created.handshakeLen, payload⟩
  else .error .refused

/-! ## What a relay passes on -/

def relayExtend (payload : List Byte) : Except Stop Cell :=
  extendCellParse RELAY_COMMAND_EXTEND2 payload >>= fun ec => createCellFormatRelayed ec.createCell

/-- The message that `command_process_created_cell` answers with on a relay. -/
def relayCreated (cell : Cell) : Except Stop Message := do
  let created ← createdCellParse cell
  extendedCellFormat
    ⟨if created.cellType = CELL_CREATED2 then RELAY_COMMAND_EXTENDED2 else RELAY_COMMAND_EXTENDED, created⟩

end TorJet.Onion
