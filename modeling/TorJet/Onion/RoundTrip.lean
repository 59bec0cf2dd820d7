import TorJet.Onion.Extend

/-!
# Handshakes through cells and messages

What a cell or a message is formatted from is what is parsed from it, and a relay passes a handshake on as it is.
-/

namespace TorJet.Onion
open Base
open Relay (Byte CELL_PAYLOAD_SIZE uint16Bytes uint16Bytes_append uint16Bytes_of_append)
open Relay (RELAY_COMMAND_EXTEND2 RELAY_COMMAND_EXTENDED2)

def CreateCell.Same (a b : CreateCell) : Prop :=
  a.cellType = b.cellType ∧ a.handshakeType = b.handshakeType ∧ a.handshakeLen = b.handshakeLen ∧
    a.onionskin.cells.take a.handshakeLen.toNat = b.onionskin.cells.take b.handshakeLen.toNat

def CreatedCell.Same (a b : CreatedCell) : Prop :=
  a.cellType = b.cellType ∧ a.handshakeLen = b.handshakeLen ∧
    a.reply.cells.take a.handshakeLen.toNat = b.reply.cells.take b.handshakeLen.toNat

section Blocks
variable {n off count : Nat} {src front : List Byte} {dst after : Buffer Byte n}

theorem memcpy_starts (starts : dst.Starts front 0) (off_eq : off = front.length) (room : off + count ≤ n)
    (enough : count ≤ src.length) :
    ∃ after, memcpy dst off src count = .ok after ∧ after.Starts (front ++ src.take count) 0 := by
  subst off_eq
  obtain ⟨after, copied, starts⟩ := starts.copy room enough
  refine ⟨after, ?_, starts⟩
  rw [memcpy, copied]

theorem memcpy_filled (room : count ≤ n) (enough : count ≤ src.length) :
    ∃ after : Buffer Byte n, memcpy (.filled n 0) 0 src count = .ok after ∧ after.Starts (src.take count) 0 :=
  memcpy_starts Buffer.starts_filled rfl (by rwa [Nat.zero_add]) enough

theorem starts_take (starts : dst.Starts (src.take count) 0) (enough : count ≤ src.length) :
    dst.cells.take count = src.take count := by
  have taken := starts.take
  rwa [List.length_take, Nat.min_eq_left enough] at taken

end Blocks

theorem torAssert_of {p : Prop} [Decidable p] (holds : p) : torAssert (decide p) = .ok () :=
  if_pos (decide_eq_true holds)

theorem bind_ok {α β : Type} {x : Except Stop α} {f : α → Except Stop β} {y : β} (ok : (x >>= f) = .ok y) :
    ∃ a, x = .ok a ∧ f a = .ok y := by
  cases x with
  | error e => cases ok
  | ok a => exact ⟨a, rfl, ok⟩

theorem ok_bind {α β : Type} (x : α) (f : α → Except Stop β) : (Except.ok x >>= f) = f x := rfl

section Create
variable {c : CreateCell} {cell : Cell} {cellType : Byte} {handshakeType handshakeLen : BitVec 16} {data : List Byte}
  {relayed : Bool}

theorem createCellInit_ok (room : handshakeLen.toNat ≤ MAX_CREATE_LEN) (enough : handshakeLen.toNat ≤ data.length) :
    ∃ c, createCellInit cellType handshakeType handshakeLen data = .ok c ∧ c.cellType = cellType ∧
      c.handshakeType = handshakeType ∧ c.handshakeLen = handshakeLen ∧
      c.onionskin.cells.take handshakeLen.toNat = data.take handshakeLen.toNat := by
  obtain ⟨after, copied, starts⟩ := @memcpy_filled MAX_CREATE_LEN handshakeLen.toNat data room enough
  refine ⟨⟨cellType, handshakeType, handshakeLen, after⟩, ?_, rfl, rfl, rfl, starts_take starts enough⟩
  rw [createCellInit, copied]
  rfl

theorem CreateCell.Same.checked {a b : CreateCell} (same : a.Same b) (unknownOk : Bool) :
    checkCreateCell a unknownOk = checkCreateCell b unknownOk := by
  obtain ⟨cellType, handshakeType, handshakeLen, -⟩ := same
  rw [checkCreateCell, checkCreateCell, checkHandshake, checkHandshake, cellType, handshakeType, handshakeLen]

theorem checkCreateCell_cases (valid : checkCreateCell c relayed = true) :
    (c.cellType = CELL_CREATE_FAST ∧ c.handshakeType = ONION_HANDSHAKE_TYPE_FAST ∧
      c.handshakeLen.toNat = CREATE_FAST_LEN) ∨
      c.cellType = CELL_CREATE2 := by
  unfold checkCreateCell at valid
  split at valid
  · cases valid
  split at valid
  · rename_i fast
    obtain ⟨handshake, length⟩ := Bool.and_eq_true_iff.mp valid
    have handshake := of_decide_eq_true handshake
    rw [checkHandshake, handshake, if_neg (by decide), if_pos rfl] at length
    exact .inl ⟨fast, handshake, of_decide_eq_true length⟩
  split at valid
  · rename_i create2
    exact .inr create2
  · cases valid

theorem format_fast (valid : checkCreateCell c relayed = true) (fast : c.cellType = CELL_CREATE_FAST)
    (length : c.handshakeLen.toNat = CREATE_FAST_LEN) :
    ∃ cell, createCellFormatImpl c relayed = .ok cell ∧ cell.command = CELL_CREATE_FAST ∧
      cell.payload.Starts (c.onionskin.cells.take CREATE_FAST_LEN) 0 := by
  have enough : CREATE_FAST_LEN ≤ c.onionskin.cells.length := by rw [c.onionskin.size]; decide
  obtain ⟨payload, copied, starts⟩ := @memcpy_filled CELL_PAYLOAD_SIZE CREATE_FAST_LEN _ (by decide) enough
  refine ⟨⟨CELL_CREATE_FAST, payload⟩, ?_, rfl, starts⟩
  rw [createCellFormatImpl, valid]
  dsimp only
  rw [fast, length, copied]
  rfl

theorem format_create2 (valid : checkCreateCell c relayed = true) (create2 : c.cellType = CELL_CREATE2)
    (short : c.handshakeLen.toNat ≤ CELL_PAYLOAD_SIZE - 4) :
    ∃ cell, createCellFormatImpl c relayed = .ok cell ∧ cell.command = CELL_CREATE2 ∧
      cell.payload.Starts (uint16Bytes c.handshakeType ++ uint16Bytes c.handshakeLen ++
        c.onionskin.cells.take c.handshakeLen.toNat) 0 := by
  have enough : c.handshakeLen.toNat ≤ c.onionskin.cells.length := by rw [c.onionskin.size]; exact short
  obtain ⟨p₁, copied₁, starts₁⟩ :=
    @memcpy_filled CELL_PAYLOAD_SIZE 2 (uint16Bytes c.handshakeType) (by decide) (Nat.le_refl 2)
  obtain ⟨p₂, copied₂, starts₂⟩ :=
    @memcpy_starts _ 2 2 (uint16Bytes c.handshakeLen) _ p₁ starts₁ rfl (by decide) (Nat.le_refl 2)
  have room : 4 + c.handshakeLen.toNat ≤ CELL_PAYLOAD_SIZE := by
    have size : CELL_PAYLOAD_SIZE = 509 := rfl
    omega
  obtain ⟨p₃, copied₃, starts₃⟩ := @memcpy_starts _ 4 _ _ _ p₂ starts₂ rfl room enough
  refine ⟨⟨CELL_CREATE2, p₃⟩, ?_, rfl, starts₃⟩
  rw [createCellFormatImpl, valid]
  dsimp only
  rw [create2, if_neg (by decide), if_neg (by decide), if_neg (by decide), if_pos rfl, torAssert_of short, ok_bind,
    copied₁,
    ok_bind, copied₂, ok_bind, copied₃]
  rfl

theorem parse_create2 (command : cell.command = CELL_CREATE2) (short : data.length ≤ MAX_CREATE_LEN)
    (length : data.length = handshakeLen.toNat) (notFast : handshakeType ≠ ONION_HANDSHAKE_TYPE_FAST)
    (starts : cell.payload.Starts (uint16Bytes handshakeType ++ uint16Bytes handshakeLen ++ data) 0) :
    ∃ c, createCellParse cell = checked (checkCreateCell · false) c ∧ c.cellType = CELL_CREATE2 ∧
      c.handshakeType = handshakeType ∧ c.handshakeLen = handshakeLen ∧
      c.onionskin.cells.take handshakeLen.toNat = data := by
  obtain ⟨pad, cells⟩ : ∃ pad, cell.payload.cells = handshakeType.extractLsb' 8 8 :: handshakeType.extractLsb' 0 8 ::
      handshakeLen.extractLsb' 8 8 :: handshakeLen.extractLsb' 0 8 :: (data ++ pad) := ⟨_, starts.2⟩
  have enough : handshakeLen.toNat ≤ (data ++ pad).length := by
    rw [← length, List.length_append]
    exact Nat.le_add_right _ _
  obtain ⟨c, made, fields, type, len, skin⟩ := @createCellInit_ok CELL_CREATE2 handshakeType handshakeLen (data ++ pad)
    (by rwa [← length]) enough
  refine ⟨c, ?_, fields, type, len, ?_⟩
  · have accepted : ¬(handshakeLen.toNat > MAX_CREATE_LEN ∨ handshakeLen.toNat > (data ++ pad).length) := by omega
    rw [createCellParse, command, if_neg (by decide), if_neg (by decide), if_pos rfl, cells, parseCreate2Payload,
      uint16Bytes_append, uint16Bytes_append, if_neg accepted, if_neg notFast, made]
    rfl
  · rw [skin, ← length, List.take_left]

theorem checked_of_same {a : CreateCell} (same : a.Same c) (valid : checkCreateCell c relayed = true) :
    checked (checkCreateCell · relayed) a = .ok a := by
  rw [checked, same.checked, valid, if_pos rfl]

theorem createCellParse_format (formatted : createCellFormat c = .ok cell)
    (notFast : ¬(c.cellType = CELL_CREATE2 ∧ c.handshakeType = ONION_HANDSHAKE_TYPE_FAST)) :
    ∃ c', createCellParse cell = .ok c' ∧ c'.Same c := by
  have valid : checkCreateCell c false = true := by
    by_contra invalid
    rw [createCellFormat, createCellFormatImpl, eq_false_of_ne_true invalid] at formatted
    cases formatted
  rcases checkCreateCell_cases valid with ⟨fast, type, length⟩ | create2
  · obtain ⟨cell', formatted', command, starts⟩ := format_fast valid fast length
    obtain rfl : cell' = cell := Except.ok.inj (formatted'.symm.trans formatted)
    have enough : CREATE_FAST_LEN ≤ cell'.payload.cells.length := by rw [cell'.payload.size]; decide
    obtain ⟨c', made, type', handshake', len', skin'⟩ :=
      @createCellInit_ok CELL_CREATE_FAST ONION_HANDSHAKE_TYPE_FAST (BitVec.ofNat 16 CREATE_FAST_LEN) _ (by decide) enough
    have length : c.handshakeLen = BitVec.ofNat 16 CREATE_FAST_LEN := BitVec.eq_of_toNat_eq length
    have same : c'.Same c := by
      refine ⟨type'.trans fast.symm, handshake'.trans type.symm, len'.trans length.symm, ?_⟩
      rw [len', length, skin']
      refine starts_take starts ?_
      rw [c.onionskin.size]
      decide
    refine ⟨c', ?_, same⟩
    rw [createCellParse, command, if_neg (by decide), if_pos rfl, made]
    exact checked_of_same same valid
  · have short : c.handshakeLen.toNat ≤ CELL_PAYLOAD_SIZE - 4 := by
      by_contra long
      rw [createCellFormat, createCellFormatImpl, valid] at formatted
      dsimp only at formatted
      rw [create2, torAssert, decide_eq_false long] at formatted
      cases formatted
    obtain ⟨cell', formatted', command, starts⟩ := format_create2 valid create2 short
    obtain rfl : cell' = cell := Except.ok.inj (formatted'.symm.trans formatted)
    have length : (c.onionskin.cells.take c.handshakeLen.toNat).length = c.handshakeLen.toNat := by
      rw [List.length_take, c.onionskin.size]
      exact Nat.min_eq_left short
    obtain ⟨c', parsed, type', handshake', len', skin'⟩ := parse_create2 command (by rw [length]; exact short) length
      (fun fast => notFast ⟨create2, fast⟩) starts
    have same : c'.Same c := ⟨type'.trans create2.symm, handshake', len', by rw [len', skin']⟩
    exact ⟨c', parsed.trans (checked_of_same same valid), same⟩

end Create

section Created
variable {c : CreatedCell} {cell : Cell} {cellType : Byte} {handshakeLen : BitVec 16} {data : List Byte}

theorem createdCellInit_ok (room : handshakeLen.toNat ≤ MAX_CREATED_LEN) (enough : handshakeLen.toNat ≤ data.length) :
    ∃ c, createdCellInit cellType handshakeLen data = .ok c ∧ c.cellType = cellType ∧ c.handshakeLen = handshakeLen ∧
      c.reply.cells.take handshakeLen.toNat = data.take handshakeLen.toNat := by
  obtain ⟨after, copied, starts⟩ := @memcpy_filled MAX_CREATED_LEN handshakeLen.toNat data room enough
  refine ⟨⟨cellType, handshakeLen, after⟩, ?_, rfl, rfl, starts_take starts enough⟩
  rw [createdCellInit, copied]
  rfl

theorem CreatedCell.Same.checked {a b : CreatedCell} (same : a.Same b) : checkCreatedCell a = checkCreatedCell b := by
  obtain ⟨cellType, handshakeLen, -⟩ := same
  rw [checkCreatedCell, checkCreatedCell, cellType, handshakeLen]

theorem checked_created {a : CreatedCell} (same : a.Same c) (valid : checkCreatedCell c = true) :
    checked checkCreatedCell a = .ok a := by
  rw [checked, same.checked, valid, if_pos rfl]

theorem checkCreatedCell_length (valid : checkCreatedCell c = true) (created2 : c.cellType = CELL_CREATED2) :
    c.handshakeLen.toNat ≤ RELAY_PAYLOAD_SIZE_MAX - 2 := by
  rw [checkCreatedCell, created2, if_neg (by decide), if_neg (by decide), if_pos rfl] at valid
  exact of_decide_eq_true valid

theorem format_reply {n : Nat} {α : Type} (more : Buffer Byte n → Except Stop α) (room : 2 + c.handshakeLen.toNat ≤ n)
    (short : c.handshakeLen.toNat ≤ MAX_CREATED_LEN) :
    ∃ payload : Buffer Byte n,
      (memcpy (.filled n 0) 0 (uint16Bytes c.handshakeLen) 2 >>= fun p =>
        memcpy p 2 c.reply.cells c.handshakeLen.toNat >>= more) = more payload ∧
      payload.Starts (uint16Bytes c.handshakeLen ++ c.reply.cells.take c.handshakeLen.toNat) 0 := by
  have enough : c.handshakeLen.toNat ≤ c.reply.cells.length := by rwa [c.reply.size]
  obtain ⟨p₁, copied₁, starts₁⟩ := @memcpy_filled n 2 (uint16Bytes c.handshakeLen) (by omega) (Nat.le_refl 2)
  obtain ⟨p₂, copied₂, starts₂⟩ := @memcpy_starts _ 2 _ _ _ p₁ starts₁ rfl room enough
  exact ⟨p₂, by rw [copied₁, ok_bind, copied₂, ok_bind], starts₂⟩

theorem createdCellParse_format (formatted : createdCellFormat c = .ok cell) :
    ∃ c', createdCellParse cell = .ok c' ∧ c'.Same c := by
  have valid : checkCreatedCell c = true := by
    by_contra invalid
    rw [createdCellFormat, eq_false_of_ne_true invalid] at formatted
    cases formatted
  rw [createdCellFormat, valid] at formatted
  dsimp only at formatted
  rw [if_neg (by decide)] at formatted
  by_cases created : c.cellType = CELL_CREATED
  · rw [checkCreatedCell, if_pos created] at valid
    cases valid
  by_cases fast : c.cellType = CELL_CREATED_FAST
  · have length : c.handshakeLen.toNat = CREATED_FAST_LEN := by
      rw [checkCreatedCell, if_neg created, if_pos fast] at valid
      exact of_decide_eq_true valid
    have enough : CREATED_FAST_LEN ≤ c.reply.cells.length := by rw [c.reply.size]; decide
    obtain ⟨payload, copied, starts⟩ := @memcpy_filled CELL_PAYLOAD_SIZE CREATED_FAST_LEN _ (by decide) enough
    rw [if_pos (.inr fast), length, torAssert_of (by decide), ok_bind, copied] at formatted
    obtain rfl := Except.ok.inj formatted
    have enough' : CREATED_FAST_LEN ≤ payload.cells.length := by rw [payload.size]; decide
    obtain ⟨c', made, type', len', reply'⟩ :=
      @createdCellInit_ok CELL_CREATED_FAST (BitVec.ofNat 16 CREATED_FAST_LEN) _ (by decide) enough'
    have length : c.handshakeLen = BitVec.ofNat 16 CREATED_FAST_LEN := BitVec.eq_of_toNat_eq length
    have same : c'.Same c := by
      refine ⟨type'.trans fast.symm, len'.trans length.symm, ?_⟩
      rw [len', length, reply']
      exact starts_take starts enough
    refine ⟨c', ?_, same⟩
    rw [createdCellParse]
    dsimp only
    rw [fast, if_neg (by decide), if_pos rfl, made]
    exact checked_created same valid
  by_cases created2 : c.cellType = CELL_CREATED2
  · have short := checkCreatedCell_length valid created2
    have sizes : RELAY_PAYLOAD_SIZE_MAX = 498 ∧ CELL_PAYLOAD_SIZE = 509 ∧ MAX_CREATED_LEN = 507 := ⟨rfl, rfl, rfl⟩
    obtain ⟨payload, copied, starts⟩ := @format_reply c CELL_PAYLOAD_SIZE _ (fun p => .ok (⟨c.cellType, p⟩ : Cell))
      (by omega) (by omega)
    rw [if_neg (not_or.mpr ⟨created, fast⟩), if_pos created2, torAssert_of (by omega), ok_bind] at formatted
    obtain rfl := Except.ok.inj (copied.symm.trans formatted)
    obtain ⟨pad, cells⟩ : ∃ pad, payload.cells = c.handshakeLen.extractLsb' 8 8 :: c.handshakeLen.extractLsb' 0 8 ::
        (c.reply.cells.take c.handshakeLen.toNat ++ pad) := ⟨_, starts.2⟩
    have length : (c.reply.cells.take c.handshakeLen.toNat).length = c.handshakeLen.toNat := by
      rw [List.length_take, c.reply.size]
      omega
    obtain ⟨c', made, type', len', reply'⟩ :=
      @createdCellInit_ok CELL_CREATED2 c.handshakeLen (c.reply.cells.take c.handshakeLen.toNat ++ pad) (by omega)
        (by rw [List.length_append, length]; exact Nat.le_add_right _ _)
    have same : c'.Same c := by
      refine ⟨type'.trans created2.symm, len', ?_⟩
      rw [len', reply', List.take_left' length]
    refine ⟨c', ?_, same⟩
    rw [createdCellParse]
    dsimp only
    rw [created2, if_neg (by decide), if_neg (by decide), if_pos rfl, cells, parseCreated2Payload, uint16Bytes_append,
      if_neg (by omega), made]
    exact checked_created same valid
  · rw [if_neg (not_or.mpr ⟨created, fast⟩), if_neg created2] at formatted
    cases formatted

end Created

section Extended
variable {c : ExtendedCell} {msg : Message} {cell : Cell}

theorem Message.content_eq {n : Nat} {front : List Byte} (starts : msg.payload.Starts front 0) (length : front.length = n)
    (len : msg.len.toNat = n) : msg.content = front := by
  have taken := starts.take
  rwa [length, ← len] at taken

theorem format_extended2 (valid : checkCreatedCell c.createdCell = true)
    (created2 : c.createdCell.cellType = CELL_CREATED2)
    (extended2 : c.cellType = RELAY_COMMAND_EXTENDED2) :
    ∃ msg, extendedCellFormat c = .ok msg ∧ msg.command = RELAY_COMMAND_EXTENDED2 ∧
      msg.len.toNat = 2 + c.createdCell.handshakeLen.toNat ∧
      msg.content = uint16Bytes c.createdCell.handshakeLen ++
        c.createdCell.reply.cells.take c.createdCell.handshakeLen.toNat := by
  have short := checkCreatedCell_length valid created2
  have sizes : RELAY_PAYLOAD_SIZE_MAX = 498 ∧ MAX_CREATED_LEN = 507 := ⟨rfl, rfl⟩
  obtain ⟨payload, copied, starts⟩ := @format_reply c.createdCell RELAY_PAYLOAD_SIZE_MAX _
    (fun p => .ok (⟨RELAY_COMMAND_EXTENDED2, 2 + c.createdCell.handshakeLen, p⟩ : Message)) (by omega) (by omega)
  have len : (2 + c.createdCell.handshakeLen : BitVec 16).toNat = 2 + c.createdCell.handshakeLen.toNat := by
    rw [BitVec.toNat_add]
    exact Nat.mod_eq_of_lt (by change 2 + _ < 65536; omega)
  have length : (uint16Bytes c.createdCell.handshakeLen ++
      c.createdCell.reply.cells.take c.createdCell.handshakeLen.toNat).length = 2 + c.createdCell.handshakeLen.toNat := by
    rw [List.length_append, List.length_take, c.createdCell.reply.size, Nat.min_eq_left (by omega)]
    rfl
  refine ⟨⟨RELAY_COMMAND_EXTENDED2, 2 + c.createdCell.handshakeLen, payload⟩, ?_, rfl, len,
    Message.content_eq starts length len⟩
  have checks : checkExtendedCell c = true := by
    rw [checkExtendedCell, created2, if_neg (by decide), if_pos rfl, extended2, valid]
    rfl
  rw [extendedCellFormat, checks]
  dsimp only
  rw [extended2, if_neg (by decide), if_neg (by decide), if_pos rfl]
  refine Eq.trans ?_ copied
  refine congrArg _ (funext fun p => ?_)
  rw [if_neg (by omega)]
  rfl

theorem checkExtendedCell_cases (formatted : extendedCellFormat c = .ok msg) :
    c.cellType = RELAY_COMMAND_EXTENDED2 ∧ c.createdCell.cellType = CELL_CREATED2 ∧
      checkCreatedCell c.createdCell = true := by
  unfold extendedCellFormat at formatted
  split at formatted
  · cases formatted
  rename_i accepted
  rw [Bool.not_eq_true', Bool.not_eq_false] at accepted
  unfold checkExtendedCell at accepted
  split at accepted
  · rename_i created
    rw [checkCreatedCell, if_pos created, Bool.and_false] at accepted
    cases accepted
  split at accepted
  · rename_i created2
    obtain ⟨extended2, valid⟩ := Bool.and_eq_true_iff.mp accepted
    exact ⟨of_decide_eq_true extended2, created2, valid⟩
  · cases accepted

theorem extendedCellParse_format (formatted : extendedCellFormat c = .ok msg) :
    ∃ c', extendedCellParse msg.command msg.content = .ok c' ∧ c'.cellType = c.cellType ∧
      c'.createdCell.Same c.createdCell := by
  obtain ⟨extended2, created2, valid⟩ := checkExtendedCell_cases formatted
  have short := checkCreatedCell_length valid created2
  have sizes : RELAY_PAYLOAD_SIZE_MAX = 498 ∧ MAX_CREATED_LEN = 507 := ⟨rfl, rfl⟩
  obtain ⟨msg', formatted', command, -, content⟩ := format_extended2 valid created2 extended2
  obtain rfl : msg' = msg := Except.ok.inj (formatted'.symm.trans formatted)
  have length : (c.createdCell.reply.cells.take c.createdCell.handshakeLen.toNat).length =
      c.createdCell.handshakeLen.toNat := by
    rw [List.length_take, c.createdCell.reply.size]
    omega
  obtain ⟨c', made, type', len', reply'⟩ :=
    @createdCellInit_ok CELL_CREATED2 c.createdCell.handshakeLen _ (by omega) (Nat.le_of_eq length.symm)
  have same : c'.Same c.createdCell := by
    refine ⟨type'.trans created2.symm, len', ?_⟩
    rw [len', reply', List.take_take, Nat.min_self]
  refine ⟨⟨RELAY_COMMAND_EXTENDED2, c'⟩, ?_, extended2.symm, same⟩
  have whole : (uint16Bytes c.createdCell.handshakeLen ++
      c.createdCell.reply.cells.take c.createdCell.handshakeLen.toNat).length ≤ RELAY_PAYLOAD_SIZE_MAX := by
    rw [List.length_append, length]
    change 2 + _ ≤ _
    omega
  rw [extendedCellParse, command, content, if_neg (Nat.not_lt.mpr whole), if_neg (by decide), if_pos rfl]
  change parseExtended2Payload (c.createdCell.handshakeLen.extractLsb' 8 8 :: c.createdCell.handshakeLen.extractLsb' 0 8 ::
    c.createdCell.reply.cells.take c.createdCell.handshakeLen.toNat) >>= _ = _
  rw [parseExtended2Payload, uint16Bytes_append, if_neg (by omega), made]
  have accepted : checkExtendedCell ⟨RELAY_COMMAND_EXTENDED2, c'⟩ = true := by
    rw [checkExtendedCell]
    dsimp only
    rw [type', if_neg (by decide), if_pos rfl, same.checked, valid]
    rfl
  exact if_pos accepted

theorem relayCreated_spec (command : cell.command = CELL_CREATED2) :
    relayCreated cell = .error .refused ∨ ∃ hlen msg, relayCreated cell = .ok msg ∧
      cell.payload.cells.take 2 = uint16Bytes hlen ∧ msg.command = RELAY_COMMAND_EXTENDED2 ∧
      msg.len.toNat = 2 + hlen.toNat ∧ msg.content = cell.payload.cells.take (2 + hlen.toNat) := by
  obtain ⟨hlen, rest, cells⟩ :
    ∃ (hlen : BitVec 16) (rest : List Byte), cell.payload.cells = uint16Bytes hlen ++ rest := by
    rcases same : cell.payload.cells with _ | ⟨l₁, _ | ⟨l₂, rest⟩⟩
    · have size := cell.payload.size
      rw [same] at size
      cases size
    · have size := cell.payload.size
      rw [same] at size
      cases size
    · exact ⟨l₁ ++ l₂, rest, by rw [uint16Bytes_of_append]; rfl⟩
  have size := cell.payload.size
  rw [cells, List.length_append] at size
  change 2 + rest.length = 509 at size
  have sizes : RELAY_PAYLOAD_SIZE_MAX = 498 ∧ MAX_CREATED_LEN = 507 := ⟨rfl, rfl⟩
  have parsed : createdCellParse cell =
      if hlen.toNat > MAX_CREATED_LEN then .error .refused
      else createdCellInit CELL_CREATED2 hlen rest >>= checked checkCreatedCell := by
    rw [createdCellParse, command, if_neg (by decide), if_neg (by decide), if_pos rfl, cells]
    change parseCreated2Payload (hlen.extractLsb' 8 8 :: hlen.extractLsb' 0 8 :: rest) >>= _ = _
    rw [parseCreated2Payload, uint16Bytes_append]
    split
    · rfl
    · rfl
  by_cases long : hlen.toNat > MAX_CREATED_LEN
  · rw [if_pos long] at parsed
    left
    rw [relayCreated, parsed]
    rfl
  obtain ⟨c, made, type, len, reply⟩ := @createdCellInit_ok CELL_CREATED2 hlen rest (by omega) (by omega)
  rw [if_neg long, made, ok_bind] at parsed
  by_cases valid : checkCreatedCell c = true
  · right
    rw [checked, if_pos valid] at parsed
    obtain ⟨msg, formatted, command, length, content⟩ :=
      @format_extended2 ⟨RELAY_COMMAND_EXTENDED2, c⟩ valid type rfl
    dsimp only at length content
    rw [len] at length
    rw [len, reply] at content
    refine ⟨hlen, msg, ?_, by rw [cells]; rfl, command, length, ?_⟩
    · rw [relayCreated, parsed, ok_bind, if_pos type, formatted]
    · rw [content, cells]
      exact (List.take_length_add_append hlen.toNat).symm
  · left
    rw [checked, if_neg valid] at parsed
    rw [relayCreated, parsed]
    rfl

end Extended

/-! ## EXTEND2 -/

def dropInvalid {α : Type} (valid : AddrPort α → Bool) (ap : AddrPort α) : AddrPort α :=
  if valid ap then ap else ⟨none, 0⟩

def ExtendCell.Sent (includeEd25519 : Bool) (c c' : ExtendCell) : Prop :=
  c'.cellType = c.cellType ∧ c'.orportIpv4 = dropInvalid validIpv4 c.orportIpv4 ∧
    c'.orportIpv6 = dropInvalid validIpv6 c.orportIpv6 ∧ c'.nodeId = c.nodeId ∧
    c'.edPubkey = (if includeEd25519 then c.edPubkey else .filled 32 0) ∧ c'.createCell.Same c.createCell

section Extend
variable {c : ExtendCell} {msg : Message} {includeEd25519 : Bool} {payload rest : List Byte} {body : Extend2CellBody}
  {create2 : Create2CellBody}

theorem getD_of_valid {α : Type} [DecidableEq α] {null : α} {ap : AddrPort α} (other : α)
    (valid : torAddrPortIsValidAp null ap = true) : (⟨some (ap.addr.getD other), ap.port⟩ : AddrPort α) = ap := by
  obtain ⟨addr, port⟩ := ap
  cases addr with
  | none => cases valid
  | some addr => rfl

theorem valid_dropInvalid {α : Type} (valid : AddrPort α → Bool) (none_invalid : valid ⟨none, 0⟩ = false)
    (ap : AddrPort α) :
    valid (dropInvalid valid ap) = valid ap := by
  unfold dropInvalid
  split
  · rfl
  · rename_i invalid
    rw [none_invalid, eq_false_of_ne_true invalid]

theorem findSpecifiers_linkSpecifiers :
    findSpecifiers (linkSpecifiers includeEd25519 c) ⟨none, none, none, none⟩ = some
      { ipv4 := if validIpv4 c.orportIpv4 then some (c.orportIpv4.addr.getD 0, c.orportIpv4.port) else none
        ipv6 := if validIpv6 c.orportIpv6 then some (c.orportIpv6.addr.getD (.filled 16 0), c.orportIpv6.port) else none
        rsaId := some c.nodeId
        edId := if includeEd25519 && c.edPubkey ≠ .filled 32 0 then some c.edPubkey else none } := by
  unfold linkSpecifiers
  split <;> split <;> split <;> rfl

theorem foundAddr_valid {α : Type} [DecidableEq α] (null other : α) (ap : AddrPort α) :
    foundAddr (if torAddrPortIsValidAp null ap then some (ap.addr.getD other, ap.port) else none) =
      dropInvalid (torAddrPortIsValidAp null) ap := by
  unfold dropInvalid
  split
  · rename_i valid
    exact getD_of_valid other valid
  · rfl

theorem edId_getD (included : Bool) (key : Buffer Byte 32) :
    (if included && key ≠ .filled 32 0 then some key else none).getD (.filled 32 0) =
      if included then key else .filled 32 0 := by
  cases included with
  | false => rfl
  | true =>
      by_cases zero : key = .filled 32 0
      · rw [zero]
        rfl
      · rw [Bool.true_and, decide_eq_true (show key ≠ .filled 32 0 from zero)]
        rfl

theorem linkSpecifiers_proper : ∀ ls ∈ linkSpecifiers includeEd25519 c, ls.Proper := by
  unfold linkSpecifiers
  split <;> split <;> split <;> simp [LinkSpecifier.Proper]

theorem createCellFromCreate2CellBody_ok (short : create2.handshakeLen.toNat ≤ MAX_CREATE_LEN)
    (length : create2.handshakeData.length = create2.handshakeLen.toNat) :
    ∃ c, createCellFromCreate2CellBody create2 = .ok c ∧ c.cellType = CELL_CREATE2 ∧
      c.handshakeType = create2.handshakeType ∧ c.handshakeLen = create2.handshakeLen ∧
      c.onionskin.cells.take c.handshakeLen.toNat = create2.handshakeData := by
  obtain ⟨c, made, type, handshake, len, skin⟩ :=
    @createCellInit_ok CELL_CREATE2 create2.handshakeType _ _ short (Nat.le_of_eq length.symm)
  refine ⟨c, ?_, type, handshake, len, ?_⟩
  · rw [createCellFromCreate2CellBody, if_neg (Nat.not_lt.mpr short), made]
  · rw [len, skin, ← length, List.take_length]

theorem checkExtendCell_create (valid : checkExtendCell c = true) :
    c.createCell.cellType = CELL_CREATE2 ∧ checkCreateCell c.createCell true = true := by
  unfold checkExtendCell at valid
  split at valid
  · cases valid
  split at valid
  · cases valid
  split at valid
  · cases valid
  split at valid
  · cases valid
  split at valid
  · cases valid
  rename_i create2
  split at valid
  · cases valid
  · exact ⟨not_not.mp create2, valid⟩

theorem reachable_of_check {α β : Type} (valid : checkExtendCell c = true) (extend2 : c.cellType = RELAY_COMMAND_EXTEND2)
    (ipv4 : α) (ipv6 : β) :
    ¬((if validIpv4 c.orportIpv4 then some ipv4 else none).isNone &&
      (if validIpv6 c.orportIpv6 then some ipv6 else none).isNone) = true := by
  unfold checkExtendCell at valid
  split at valid
  · cases valid
  split at valid
  · cases valid
  rename_i unreachable
  rw [extend2] at unreachable
  cases ipv4Valid : validIpv4 c.orportIpv4 with
  | true => simp
  | false =>
      cases ipv6Valid : validIpv6 c.orportIpv6 with
      | true => simp
      | false =>
          rw [ipv4Valid, ipv6Valid] at unreachable
          exact absurd rfl unreachable

theorem ExtendCell.Sent.checked {c' : ExtendCell}
    (sent : c.Sent includeEd25519 c') : checkExtendCell c' = checkExtendCell c := by
  obtain ⟨type, ipv4, ipv6, nodeId, -, create⟩ := sent
  have create' := create.checked true
  obtain ⟨createType, handshake, -⟩ := create
  rw [checkExtendCell, checkExtendCell, type, ipv4, ipv6, nodeId, createType, handshake, create',
    valid_dropInvalid validIpv4 rfl, valid_dropInvalid validIpv6 rfl]

theorem checkExtendCell_of_format (formatted : extendCellFormat includeEd25519 c = .ok msg) :
    checkExtendCell c = true ∧ c.cellType = RELAY_COMMAND_EXTEND2 := by
  unfold extendCellFormat at formatted
  split at formatted
  · cases formatted
  rename_i accepted
  rw [Bool.not_eq_true', Bool.not_eq_false] at accepted
  split at formatted
  · cases formatted
  split at formatted
  · rename_i extend2
    exact ⟨accepted, extend2⟩
  · cases formatted

theorem extendCellFormat_bytes (formatted : extendCellFormat includeEd25519 c = .ok msg) :
    ∃ bytes, extend2CellBodyEncode RELAY_PAYLOAD_SIZE_MAX (extend2CellBody includeEd25519 c) = some bytes ∧
      c.createCell.handshakeLen.toNat ≤ MAX_CREATE_LEN ∧ msg.command = RELAY_COMMAND_EXTEND2 ∧
      (bytes.length ≤ RELAY_PAYLOAD_SIZE_MAX → msg.content = bytes) := by
  obtain ⟨accepted, extend2⟩ := checkExtendCell_of_format formatted
  rw [extendCellFormat, accepted, if_neg (by decide), extend2, if_neg (by decide), if_pos rfl] at formatted
  split at formatted
  · cases formatted
  rename_i short
  rw [Nat.not_lt, c.createCell.onionskin.size] at short
  split at formatted
  · cases formatted
  rename_i bytes encoded
  refine ⟨bytes, encoded, short, ?_⟩
  obtain ⟨payload, copied, formatted⟩ := bind_ok formatted
  obtain rfl := Except.ok.inj formatted
  refine ⟨rfl, fun room => ?_⟩
  obtain ⟨payload', copied', starts⟩ := @memcpy_filled RELAY_PAYLOAD_SIZE_MAX bytes.length bytes room (Nat.le_refl _)
  obtain rfl : payload' = payload := Except.ok.inj (copied'.symm.trans copied)
  rw [List.take_length] at starts
  have small : bytes.length < 65536 := Nat.lt_of_le_of_lt room (by decide)
  exact Message.content_eq starts rfl ((BitVec.toNat_ofNat _ _).trans (Nat.mod_eq_of_lt small))

theorem extendCellParse_format (formatted : extendCellFormat includeEd25519 c = .ok msg) :
    ∃ c', extendCellParse msg.command msg.content = .ok c' ∧ c.Sent includeEd25519 c' := by
  obtain ⟨accepted, extend2⟩ := checkExtendCell_of_format formatted
  obtain ⟨create2, createValid⟩ := checkExtendCell_create accepted
  obtain ⟨bytes, encoded, short, command, content⟩ := extendCellFormat_bytes formatted
  obtain ⟨read, room⟩ := extend2CellBodyParse_encode linkSpecifiers_proper encoded
  have length : (c.createCell.onionskin.cells.take c.createCell.handshakeLen.toNat).length =
      c.createCell.handshakeLen.toNat := by
    rw [List.length_take, c.createCell.onionskin.size]
    exact Nat.min_eq_left short
  obtain ⟨create, made, createType, handshake, len, skin⟩ := @createCellFromCreate2CellBody_ok
    ⟨c.createCell.handshakeType, c.createCell.handshakeLen,
      c.createCell.onionskin.cells.take c.createCell.handshakeLen.toNat⟩ short length
  have same : create.Same c.createCell := ⟨createType.trans create2.symm, handshake, len, skin⟩
  obtain ⟨c', request, sent⟩ : ∃ c', extendCellFromExtend2CellBody (extend2CellBody includeEd25519 c) = .ok c' ∧
      c.Sent includeEd25519 c' := by
    rw [extendCellFromExtend2CellBody, extend2CellBody]
    dsimp only
    rw [findSpecifiers_linkSpecifiers]
    dsimp only
    rw [if_neg (reachable_of_check accepted extend2 _ _), made]
    exact ⟨_, rfl, extend2.symm, foundAddr_valid 0 0 _, foundAddr_valid _ _ _, rfl, edId_getD _ _, same⟩
  refine ⟨c', ?_, sent⟩
  rw [extendCellParse, command, content room, if_neg (Nat.not_lt.mpr room), if_neg (by decide), if_pos rfl, read]
  dsimp only
  rw [request, ok_bind, checked, sent.checked, accepted, if_pos rfl]

theorem extendCellFromExtend2CellBody_cases (body : Extend2CellBody)
    (length : body.create2.handshakeData.length = body.create2.handshakeLen.toNat) :
    extendCellFromExtend2CellBody body = .error .refused ∨ ∃ ec, extendCellFromExtend2CellBody body = .ok ec ∧
      ec.createCell.handshakeType = body.create2.handshakeType ∧
      ec.createCell.handshakeLen = body.create2.handshakeLen ∧ ec.createCell.handshakeLen.toNat ≤ MAX_CREATE_LEN ∧
      ec.createCell.onionskin.cells.take ec.createCell.handshakeLen.toNat = body.create2.handshakeData := by
  unfold extendCellFromExtend2CellBody
  split
  · exact .inl rfl
  split
  · exact .inl rfl
  split
  · exact .inl rfl
  by_cases short : body.create2.handshakeLen.toNat ≤ MAX_CREATE_LEN
  · obtain ⟨create, made, -, handshake, len, skin⟩ := createCellFromCreate2CellBody_ok short length
    rw [made]
    exact .inr ⟨_, rfl, handshake, len, by rwa [len], skin⟩
  · rw [createCellFromCreate2CellBody, if_pos (Nat.not_le.mp short)]
    exact .inl rfl

theorem relayExtend_spec (payload : List Byte) :
    relayExtend payload = .error .refused ∨ ∃ body rest cell, extend2CellBodyParse payload = some (body, rest) ∧
      relayExtend payload = .ok cell ∧ cell.command = CELL_CREATE2 ∧
      cell.payload.Starts (uint16Bytes body.create2.handshakeType ++ uint16Bytes body.create2.handshakeLen ++
        body.create2.handshakeData) 0 := by
  unfold relayExtend extendCellParse
  split
  · exact .inl rfl
  rw [if_neg (by decide), if_pos rfl]
  split
  · exact .inl rfl
  rename_i body rest read
  obtain ⟨length, -⟩ := extend2CellBodyParse_data read
  rcases extendCellFromExtend2CellBody_cases body length with refused | ⟨ec, request, handshake, len, short, skin⟩
  · rw [refused]
    exact .inl rfl
  rw [request, ok_bind, checked]
  split
  · rename_i accepted
    right
    obtain ⟨create2, valid⟩ := checkExtendCell_create accepted
    obtain ⟨cell, formatted, command, starts⟩ := format_create2 valid create2 short
    rw [handshake, len] at starts
    rw [len] at skin
    rw [skin] at starts
    exact ⟨body, rest, cell, read, formatted, command, starts⟩
  · exact .inl rfl

end Extend

/-- What is formatted is what is parsed, and a relay passes on the handshake that it is given or refuses to; it never
copies outside a block or fails an assertion. -/
theorem handshakes_kept :
    (∀ c cell, createCellFormat c = .ok cell →
        ¬(c.cellType = CELL_CREATE2 ∧ c.handshakeType = ONION_HANDSHAKE_TYPE_FAST) →
        ∃ c', createCellParse cell = .ok c' ∧ c'.Same c) ∧
      (∀ c cell, createdCellFormat c = .ok cell → ∃ c', createdCellParse cell = .ok c' ∧ c'.Same c) ∧
      (∀ c msg, extendedCellFormat c = .ok msg →
        ∃ c', extendedCellParse msg.command msg.content = .ok c' ∧ c'.cellType = c.cellType ∧
          c'.createdCell.Same c.createdCell) ∧
      (∀ includeEd25519 c msg, extendCellFormat includeEd25519 c = .ok msg →
        ∃ c', extendCellParse msg.command msg.content = .ok c' ∧ c.Sent includeEd25519 c') ∧
      (∀ payload, relayExtend payload = .error .refused ∨
        ∃ body rest cell, extend2CellBodyParse payload = some (body, rest) ∧ relayExtend payload = .ok cell ∧
          cell.command = CELL_CREATE2 ∧
          cell.payload.Starts (uint16Bytes body.create2.handshakeType ++ uint16Bytes body.create2.handshakeLen ++
            body.create2.handshakeData) 0) ∧
      ∀ cell : Cell, cell.command = CELL_CREATED2 → relayCreated cell = .error .refused ∨
        ∃ hlen msg, relayCreated cell = .ok msg ∧ cell.payload.cells.take 2 = uint16Bytes hlen ∧
          msg.command = RELAY_COMMAND_EXTENDED2 ∧ msg.len.toNat = 2 + hlen.toNat ∧
          msg.content = cell.payload.cells.take (2 + hlen.toNat) :=
  ⟨fun _ _ formatted notFast => createCellParse_format formatted notFast, fun _ _ => createdCellParse_format,
    fun _ _ => extendedCellParse_format, fun _ _ _ => extendCellParse_format, relayExtend_spec,
    fun _ => relayCreated_spec⟩

end TorJet.Onion
