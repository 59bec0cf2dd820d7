import TorJet.Nodefamily.Family

/-!
# Spellings of a member

A nickname in any case, and a fingerprint in any of its spellings, are one member of a family; what a member is printed
as is one of its spellings.
-/

namespace TorJet.Nodefamily
open Base Encoding Net
open Guardstate (isLegalNickname ofNat_toNat hexPair_digit)
open Routersets (isLegalHexdigest hexDigestNicknameDecode base16Digest skipDollar isLegalNickname_length
  isLegalHexdigest_length DIGEST_LEN HEX_DIGEST_LEN)

/-! ## Spellings -/

/-- A fingerprint: its digits, with a `$` before them or not, and with a nickname behind them or not. -/
structure Hexid (s hex : Text) : Prop where
  parts : ∃ dollar suffix, s = dollar ++ (hex ++ suffix) ∧ (dollar = [] ∨ dollar = ['$']) ∧
    (suffix = [] ∨ ∃ c name, suffix = c :: name ∧ (c = '=' ∨ c = '~') ∧ isLegalNickname name = true)
  size : hex.length = 40
  digits : ∀ c ∈ hex, torIsxdigit c = true

inductive SameMember : Text → Text → Prop
  | same (s : Text) : SameMember s s
  | nickname {s t : Text} (legal : isLegalNickname s = true) (legal' : isLegalNickname t = true)
      (same : s.map Char.toLower = t.map Char.toLower) : SameMember s t
  | hexid {s t hex hex' : Text} (first : Hexid s hex) (second : Hexid t hex')
      (same : hex.map Char.toLower = hex'.map Char.toLower) : SameMember s t

section Read
variable {s t hex hex' suffix : Text} {slot : Slot}

theorem bytesOf_length (s : Text) : (bytesOf s).length = s.length := List.length_map ..

theorem base16Digest_digits (size : hex.length = 40) (digits : ∀ c ∈ hex, torIsxdigit c = true) :
    ∃ id : Id, (∀ suffix, base16Digest (hex ++ suffix) = (20, id.cells)) ∧
      (bytesOf hex).map Binascii.hexDecodeDigit = (id.cells.flatMap Binascii.hexPair).map Binascii.hexDecodeDigit := by
  obtain ⟨bytes, length, same⟩ := @exists_bytes (bytesOf hex) 20 (by rw [bytesOf_length, size]) fun d mem => by
    obtain ⟨c, inHex, rfl⟩ := List.mem_map.mp mem
    exact (digit_lower (digits c inHex)).2
  refine ⟨⟨bytes, length⟩, fun suffix => ?_, same⟩
  have room : (List.replicate DIGEST_LEN (0 : UInt8)).length = 20 := List.length_replicate
  have decoded := @Binascii.base16Decode_eq (List.replicate DIGEST_LEN 0) bytes (by omega) (by rw [room]; decide)
  have whole : Binascii.filled bytes (List.replicate DIGEST_LEN (0 : UInt8)).length = bytes := by
    rw [Binascii.filled, room, length]
    exact List.append_nil _
  rw [← base16Decode_congr same, whole, length] at decoded
  have front : (hex ++ suffix).take HEX_DIGEST_LEN = hex := by
    rw [show HEX_DIGEST_LEN = hex.length from size.symm, List.take_left]
  rw [bytesOf] at decoded
  rw [base16Digest, front, decoded]
  rfl

theorem skipDollar_hexid (size : hex.length = 40) (digits : ∀ c ∈ hex, torIsxdigit c = true) (suffix : Text) :
    skipDollar (hex ++ suffix) = hex ++ suffix ∧ skipDollar ('$' :: (hex ++ suffix)) = hex ++ suffix := by
  refine ⟨?_, if_pos rfl⟩
  cases hex with
  | nil => cases size
  | cons c hex =>
      refine if_neg fun dollar => ?_
      have digit := digits c List.mem_cons_self
      rw [Option.some.inj dollar] at digit
      cases digit

theorem isLegalNickname_of_long (long : 20 ≤ s.length) : isLegalNickname s = false := by
  cases legal : isLegalNickname s with
  | false => rfl
  | true =>
      have short := isLegalNickname_length legal
      omega

theorem Hexid.skipDollar (hexid : Hexid s hex) : ∃ suffix, Routersets.skipDollar s = hex ++ suffix ∧
    (suffix = [] ∨ ∃ c name, suffix = c :: name ∧ (c = '=' ∨ c = '~') ∧ isLegalNickname name = true) := by
  obtain ⟨⟨dollar, suffix, rfl, isDollar, isSuffix⟩, size, digits⟩ := hexid
  refine ⟨suffix, ?_, isSuffix⟩
  obtain rfl | rfl := isDollar
  · exact (skipDollar_hexid size digits suffix).1
  · exact (skipDollar_hexid size digits suffix).2

theorem behind_digits (size : hex.length = 40) (suffix : Text) : (hex ++ suffix)[HEX_DIGEST_LEN]? = suffix.head? ∧
    (hex ++ suffix).drop (HEX_DIGEST_LEN + 1) = suffix.tail ∧ (hex ++ suffix).length = 40 + suffix.length := by
  have long : HEX_DIGEST_LEN = hex.length := size.symm
  refine ⟨?_, ?_, by rw [List.length_append, size]⟩
  · rw [long, List.getElem?_append_right (Nat.le_refl _), Nat.sub_self, List.head?_eq_getElem?]
  · rw [long, List.drop_append, List.drop_of_length_le (Nat.le_succ _), Nat.add_sub_cancel_left, List.nil_append,
      List.drop_one]

theorem Hexid.isLegalHexdigest (hexid : Hexid s hex) : Routersets.isLegalHexdigest s = true := by
  obtain ⟨suffix, skipped, isSuffix⟩ := hexid.skipDollar
  obtain ⟨mark, name, length⟩ := behind_digits hexid.size suffix
  have stops : ∀ c ∈ suffix.head?, torIsxdigit c = false := by
    intro c head
    obtain rfl | ⟨d, name, rfl, mark, -⟩ := isSuffix
    · cases head
    · rw [← Option.some.inj head]
      obtain rfl | rfl := mark <;> rfl
  have limit : HEX_DIGEST_LEN = 40 := rfl
  rw [Routersets.isLegalHexdigest, skipped, takeWhile_append hexid.digits stops, mark, name, length, if_neg, limit,
    hexid.size, decide_eq_true (Nat.le_add_right _ _), decide_eq_true rfl]
  · rfl
  · rintro ⟨longer, wrong⟩
    obtain rfl | ⟨d, name, rfl, isMark, legal⟩ := isSuffix
    · simp [limit] at longer
    · exact wrong ⟨isMark.imp (congrArg some) (congrArg some), legal⟩

theorem Hexid.decode (hexid : Hexid s hex) : ∃ id : Id, (∃ more, hexDigestNicknameDecode s = some (id.cells, more)) ∧
    (bytesOf hex).map Binascii.hexDecodeDigit = (id.cells.flatMap Binascii.hexPair).map Binascii.hexDecodeDigit := by
  obtain ⟨suffix, skipped, isSuffix⟩ := hexid.skipDollar
  obtain ⟨mark, -, length⟩ := behind_digits hexid.size suffix
  obtain ⟨id, decoded, same⟩ := base16Digest_digits hexid.size hexid.digits
  have limit : HEX_DIGEST_LEN = 40 := rfl
  refine ⟨id, ?_, same⟩
  rw [hexDigestNicknameDecode, skipped]
  dsimp only
  rw [length, mark, decoded, if_neg (by omega)]
  obtain rfl | ⟨d, name, rfl, isMark, legal⟩ := isSuffix
  · rw [if_neg (by simp [limit]), if_pos (by simp [limit])]
    exact ⟨_, if_neg (not_not.mpr rfl)⟩
  · have short := isLegalNickname_length legal
    have limits : Routersets.MAX_NICKNAME_LEN = 19 := rfl
    rw [if_pos ⟨by simp [limit], isMark.imp (congrArg some) (congrArg some), by rw [List.length_cons]; omega⟩]
    exact ⟨_, if_neg (not_not.mpr rfl)⟩

theorem Hexid.readMember (hexid : Hexid s hex) : ∃ id : Id,
    Nodefamily.readMember s = .good (fill NODEFAMILY_BY_RSA_ID id.cells) ∧
    (bytesOf hex).map Binascii.hexDecodeDigit = (id.cells.flatMap Binascii.hexPair).map Binascii.hexDecodeDigit := by
  obtain ⟨id, ⟨more, decoded⟩, same⟩ := hexid.decode
  have long := isLegalHexdigest_length hexid.isLegalHexdigest
  refine ⟨id, ?_, same⟩
  rw [Nodefamily.readMember, isLegalNickname_of_long (by omega), if_neg Bool.false_ne_true, if_pos hexid.isLegalHexdigest,
    decoded]

theorem id_inj {a b : Id} (same : (a.cells.flatMap Binascii.hexPair).map Binascii.hexDecodeDigit =
    (b.cells.flatMap Binascii.hexPair).map Binascii.hexDecodeDigit) : a = b := by
  have decoded (a : Id) : Binascii.base16Decode (List.replicate 20 0) (a.cells.flatMap Binascii.hexPair) =
      .ok ((20 : Nat), a.cells) := by
    have room : (List.replicate 20 (0 : UInt8)).length = 20 := List.length_replicate
    have size : a.cells.length = 20 := a.size
    have eq := @Binascii.base16Decode_eq (List.replicate 20 0) a.cells (by omega) (by rw [room]; decide)
    rw [Binascii.filled, room, size, Nat.sub_self, List.replicate_zero, List.append_nil] at eq
    exact eq
  have both := base16Decode_congr same (List.replicate 20 0)
  rw [decoded, decoded] at both
  exact Buffer.ext (congrArg Prod.snd (Except.ok.inj both))

theorem SameMember.readMember (spelled : SameMember s t) : Nodefamily.readMember s = Nodefamily.readMember t ∧
    (Nodefamily.readMember s = .unrecognized → s = t) := by
  cases spelled with
  | same => exact ⟨rfl, fun _ => rfl⟩
  | nickname legal legal' same =>
      have read {s : Text} (legal : isLegalNickname s = true) :
          Nodefamily.readMember s = .good (fill NODEFAMILY_BY_NICKNAME (bytesOf (s.map Char.toLower))) := by
        rw [Nodefamily.readMember, if_pos legal]
      rw [read legal, read legal', same]
      exact ⟨rfl, fun absurd => by cases absurd⟩
  | hexid first second same =>
      obtain ⟨id, read, digits⟩ := first.readMember
      obtain ⟨id', read', digits'⟩ := second.readMember
      have equal : id = id' :=
        id_inj (digits.symm.trans ((digits_congr first.digits second.digits same).trans digits'))
      rw [read, read', equal]
      exact ⟨rfl, fun absurd => by cases absurd⟩

end Read

/-! ## Printing -/

section Print
variable {slot : Slot} {cp : Text} {id : Id}

structure Prints (slot : Slot) (text : Text) : Prop where
  format : formatMember slot = .ok [text]
  read : readMember text = .good slot
  nonempty : text ≠ []
  black : ∀ c ∈ text, torIsspace c = false

theorem isLegalNickname_iff {s : Text} : isLegalNickname s = true ↔
    0 < s.length ∧ s.length ≤ 19 ∧ ∀ c ∈ s, (torIsalpha c || torIsdigit c) = true := by
  rw [isLegalNickname, Bool.and_eq_true, Bool.and_eq_true, decide_eq_true_eq, decide_eq_true_eq, List.all_eq_true,
    and_assoc]
  rfl

theorem alnum_lower {c : Char} (alnum : (torIsalpha c || torIsdigit c) = true) :
    (torIsalpha c.toLower || torIsdigit c.toLower) = true ∧ c.toLower.toLower = c.toLower ∧ c.toLower.toNat < 256 ∧
      UInt8.ofNat c.toLower.toNat ≠ 0 ∧ torIsspace c.toLower = false := by
  have all : ∀ n < 123, (torIsalpha (Char.ofNat n) || torIsdigit (Char.ofNat n)) = true →
      (torIsalpha (Char.ofNat n).toLower || torIsdigit (Char.ofNat n).toLower) = true ∧
      (Char.ofNat n).toLower.toLower = (Char.ofNat n).toLower ∧ (Char.ofNat n).toLower.toNat < 256 ∧
      UInt8.ofNat (Char.ofNat n).toLower.toNat ≠ 0 ∧ torIsspace (Char.ofNat n).toLower = false := by decide
  have small : c.toNat < 123 := by
    have le {a b : Char} (le : a ≤ b) : a.toNat ≤ b.toNat := le
    simp only [torIsalpha, torIsdigit, Bool.or_eq_true, Bool.and_eq_true, decide_eq_true_eq] at alnum
    obtain (⟨-, high⟩ | ⟨-, high⟩) | ⟨-, high⟩ := alnum
    · exact Nat.lt_of_le_of_lt (le high) (by decide)
    · exact Nat.lt_of_le_of_lt (le high) (by decide)
    · exact Nat.lt_of_le_of_lt (le high) (by decide)
  have found := all c.toNat small
  rw [Char.ofNat_toNat] at found
  exact found alnum

theorem fill_head (type : UInt8) (bytes : List UInt8) : (fill type bytes).cells.head? = some type := rfl

theorem cString_fill {bytes : List UInt8} (type : UInt8) (black : ∀ b ∈ bytes, b ≠ 0)
    (short : bytes.length ≤ DIGEST_LEN) :
    cString (fill type bytes).cells.tail = bytes.map fun b => Char.ofNat b.toNat := by
  have text : ((bytes ++ List.replicate DIGEST_LEN 0).take DIGEST_LEN).takeWhile (· ≠ 0) = bytes := by
    rw [List.take_append, List.take_of_length_le short, takeWhile_append]
    · exact fun b mem => decide_eq_true (black b mem)
    · intro b head
      have zero := List.eq_of_mem_replicate (List.mem_of_mem_take (List.mem_of_mem_head? head))
      rw [zero]
      rfl
  rw [fill, cString, List.tail_cons, text]

theorem prints_nickname (legal : isLegalNickname cp = true) :
    Prints (fill NODEFAMILY_BY_NICKNAME (bytesOf (cp.map Char.toLower))) (cp.map Char.toLower) := by
  obtain ⟨some_, short, alnum⟩ := isLegalNickname_iff.mp legal
  have lower : ∀ c ∈ cp.map Char.toLower, (torIsalpha c || torIsdigit c) = true ∧ c.toLower = c ∧ c.toNat < 256 ∧
      UInt8.ofNat c.toNat ≠ 0 ∧ torIsspace c = false := by
    intro c mem
    obtain ⟨d, inCp, rfl⟩ := List.mem_map.mp mem
    exact alnum_lower (alnum d inCp)
  have legal' : isLegalNickname (cp.map Char.toLower) = true :=
    isLegalNickname_iff.mpr ⟨by rwa [List.length_map], by rwa [List.length_map], fun c mem => (lower c mem).1⟩
  have same : (cp.map Char.toLower).map Char.toLower = cp.map Char.toLower :=
    (List.map_congr_left fun c mem => (lower c mem).2.1).trans (List.map_id _)
  refine ⟨?_, by rw [readMember, if_pos legal', same], ?_, fun c mem => (lower c mem).2.2.2.2⟩
  · have size : (bytesOf (cp.map Char.toLower)).length ≤ DIGEST_LEN := by
      rw [bytesOf_length, List.length_map]
      exact Nat.le_succ_of_le short
    have black : ∀ b ∈ bytesOf (cp.map Char.toLower), b ≠ 0 := by
      intro b mem
      obtain ⟨c, inName, rfl⟩ := List.mem_map.mp mem
      exact (lower c inName).2.2.2.1
    have back : (bytesOf (cp.map Char.toLower)).map (fun b => Char.ofNat b.toNat) = cp.map Char.toLower := by
      rw [bytesOf, List.map_map]
      refine (List.map_congr_left fun c mem => ?_).trans (List.map_id _)
      show Char.ofNat (UInt8.ofNat c.toNat).toNat = c
      rw [UInt8.toNat_ofNat_of_lt' (lower c mem).2.2.1, Char.ofNat_toNat]
    rw [formatMember, fill_head, if_pos rfl, cString_fill _ black size, back]
  · intro empty
    rw [List.map_eq_nil_iff.mp empty] at some_
    cases some_

/-- The digits of an identity, as `base16_encode` and `tor_strupper` leave them. -/
def hexText (id : Id) : Text := (id.cells.flatMap Binascii.hexPair).map fun b => Char.ofNat b.toNat

theorem hexText_digits (id : Id) : (∀ c ∈ hexText id, torIsxdigit c = true ∧ c.toUpper = c ∧ torIsspace c = false) ∧
    (hexText id).length = 40 ∧ bytesOf (hexText id) = id.cells.flatMap Binascii.hexPair := by
  have all : ∀ v < 16, torIsxdigit (Char.ofNat (Binascii.hexChars.getD v 0).toNat) = true ∧
      (Char.ofNat (Binascii.hexChars.getD v 0).toNat).toUpper = Char.ofNat (Binascii.hexChars.getD v 0).toNat ∧
      torIsspace (Char.ofNat (Binascii.hexChars.getD v 0).toNat) = false := by decide
  refine ⟨fun c mem => ?_, ?_, ?_⟩
  · obtain ⟨d, inPairs, rfl⟩ := List.mem_map.mp mem
    obtain ⟨b, -, inPair⟩ := List.mem_flatMap.mp inPairs
    obtain ⟨high, low, -⟩ := Binascii.halves b
    rw [Binascii.hexPair, List.mem_cons, List.mem_singleton] at inPair
    obtain rfl | rfl := inPair
    · exact all _ high
    · exact all _ low
  · rw [hexText, List.length_map, Binascii.length_hexPairs, id.size]
    rfl
  · rw [bytesOf, hexText, List.map_map]
    exact (List.map_congr_left fun b _ => ofNat_toNat b).trans (List.map_id _)

theorem formatMember_id (id : Id) : formatMember (fill NODEFAMILY_BY_RSA_ID id.cells) = .ok ['$' :: hexText id] := by
  have size : id.cells.length = 20 := id.size
  have limit : sizeTCeiling = 9223372036854775791 := rfl
  have room : (List.replicate (HEX_DIGEST_LEN + 1) (0 : UInt8)).length = 41 := List.length_replicate
  have encoded := @Binascii.base16Encode_eq (List.replicate (HEX_DIGEST_LEN + 1) 0) id.cells (by omega) (by omega) (by omega)
  have cells : (fill NODEFAMILY_BY_RSA_ID id.cells).cells.tail = id.cells := by
    rw [fill, List.tail_cons]
    exact List.take_left' id.size
  have digits : ∀ b ∈ id.cells.flatMap Binascii.hexPair, decide (b ≠ 0) = true := fun b mem =>
    decide_eq_true fun zero => Binascii.hexPairs_black id.cells (zero ▸ mem)
  have text : cString (Binascii.filled (id.cells.flatMap Binascii.hexPair) 41) = hexText id := by
    rw [cString, Binascii.filled, List.takeWhile_append_of_pos digits, Binascii.length_hexPairs, size]
    exact congrArg _ (List.append_nil _)
  have upper : ('$' :: hexText id).map Char.toUpper = '$' :: hexText id := by
    rw [List.map_cons]
    exact congrArg _ ((List.map_congr_left fun c mem => ((hexText_digits id).1 c mem).2.1).trans (List.map_id _))
  rw [formatMember, fill_head, if_neg (by decide), if_pos rfl, cells, encoded, room]
  dsimp only
  rw [text, upper]

theorem prints_id (id : Id) : Prints (fill NODEFAMILY_BY_RSA_ID id.cells) ('$' :: hexText id) := by
  obtain ⟨digits, size, bytes⟩ := hexText_digits id
  have hexid : Hexid ('$' :: hexText id) (hexText id) :=
    ⟨⟨['$'], [], by simp, .inr rfl, .inl rfl⟩, size, fun c mem => (digits c mem).1⟩
  obtain ⟨id', read, same⟩ := hexid.readMember
  rw [bytes] at same
  refine ⟨formatMember_id id, by rw [read, id_inj same], List.cons_ne_nil _ _, ?_⟩
  rw [List.forall_mem_cons]
  exact ⟨rfl, fun c mem => (digits c mem).2.2⟩

theorem prints_of_read (read : readMember cp = .good slot) : ∃ text, Prints slot text := by
  rw [readMember] at read
  split at read
  · rename_i legal
    exact ⟨_, Member.good.inj read ▸ prints_nickname legal⟩
  · split at read
    · split at read
      · rename_i digest _ decoded
        have size : digest.length = DIGEST_LEN := by
          rw [Routersets.decode_digest decoded]
          obtain ⟨ret, out, eq, length⟩ := Binascii.base16Decode_safe (List.replicate DIGEST_LEN 0)
            (((skipDollar cp).take HEX_DIGEST_LEN).map fun c => UInt8.ofNat c.toNat)
          rw [base16Digest, eq]
          exact length.trans List.length_replicate
        exact ⟨_, Member.good.inj read ▸ prints_id ⟨digest, size⟩⟩
      · cases read
    · cases read

end Print
end TorJet.Nodefamily
